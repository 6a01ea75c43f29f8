import MetricCollector.Settings.Error

namespace MetricCollector

structure GraphiteSettings where
  -- Where the plaintext listener is. The name is looked up only when a connection is opened.
  address : String := "127.0.0.1:2003"
  -- The root of every path.
  root : String := "stats"
  deriving DecidableEq, Repr

-- A kind of sink together with what it needs to know.
inductive Backend
  | graphite (settings : GraphiteSettings)
  | stdout
  deriving DecidableEq, Repr

namespace Backend

def name : Backend → String
  | graphite _ => "graphite"
  | stdout     => "stdout"

-- One backend of every kind, with its default settings.
def defaults : List Backend :=
  [.graphite {}, .stdout]

def named? (name : String) : Option Backend :=
  defaults.find? (·.name = name)

-- The backend with a name, with its default settings. Blanks around the name do not matter.
def ofName (name : String) : Except SettingFault Backend :=
  match named? (Text.trim name) with
  | some backend => .ok backend
  | none         => .error (.unknownBackend (Text.trim name))

end Backend
end MetricCollector
