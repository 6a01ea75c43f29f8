namespace MetricCollector.Text

-- What stands before and after the first `separator`, if there is one.
def cutAt? {α : Type} [BEq α] (separator : α) (xs : List α) : Option (List α × List α) :=
  match xs.dropWhile (· != separator) with
  | []        => none
  | _ :: rest => some (xs.takeWhile (· != separator), rest)

-- What follows `start`, if the list begins with it.
def after? {α : Type} [BEq α] : (start xs : List α) → Option (List α)
  | [],      xs      => some xs
  | _ :: _,  []      => none
  | a :: as, x :: xs => if a == x then after? as xs else none

-- What precedes `last`, if the list ends with it.
def before? {α : Type} [BEq α] (last : α) (xs : List α) : Option (List α) :=
  if xs.getLast? == some last then some xs.dropLast else none

end MetricCollector.Text
