import MetricCollector.Collector

namespace MetricCollector

-- The engine checks for itself what it depends on.
def EngineSettings.check (e : EngineSettings) : Except SettingsError Unit := do
  if e.flushInterval.isZero then throw (.interval .flushIntervalZero)
  if e.queueCapacity = 0 then throw (.setting .queueCapacityZero)

-- Settings are checked when a daemon is made of them. When the daemon starts, they are taken apart
-- for the engine and for the dispatcher, and the engine looks at its part once more.
structure Daemon where
  settings : Settings

namespace Daemon

-- A daemon that has not started, or the first fault of its settings.
def create (settings : Settings) : Except SettingsError Daemon := do
  settings.validate
  return { settings }

-- The engine and the dispatcher of the daemon as they go on from now, with these sinks.
def start (d : Daemon) (sinks : List Sink) (now : Moment) : Except SettingsError Collector := do
  let engine ← d.settings.engine
  engine.check
  return { Collector.create d.settings engine sinks with now }.start

end Daemon
end MetricCollector
