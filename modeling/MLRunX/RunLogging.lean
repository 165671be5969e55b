import MLRunX.EventQueues

namespace MLRunX.RunLogging

open EventQueues (Data Event Value)
open PayloadHash (F64)

/-- A value given to `log`: a number, an array of which some items are numbers, or
something that is skipped. -/
inductive LogValue
  | number (value : F64)
  | array (items : List (Option F64))
  | skipped
  deriving DecidableEq, Repr

structure RunState where
  runId : String
  finished : Bool
  step : Int
  deriving DecidableEq, Repr

/-- A call with the time it is made at. -/
inductive Call
  | log (data : List (String × LogValue)) (step : Option Int) (timestamp : Option F64) (now : F64)
  | logParams (params : List (String × String)) (now : F64)
  | logTags (tags : List (String × String)) (now : F64)

def orTime (timestamp : Option F64) (now : F64) : F64 := (timestamp.filter (fun t : F64 => t <<< 1 != 0)).getD now

def metricItems (name : String) : LogValue → List (String × F64)
  | .number value => [(name, value)]
  | .array items => items.zipIdx.filterMap (fun item => item.1.map (fun value => (s!"{name}[{item.2}]", value)))
  | .skipped => []

def metricEvent (runId : String) (step : Int) (ts : F64) (item : String × F64) : Event where
  type := .metric
  runId := runId
  timestamp := ts.toNat
  data := [("name", .str item.1), ("value", .float item.2), ("step", .int step), ("timestamp", .float ts)]

def paramEvent (runId : String) (now : F64) (param : String × String) : Event where
  type := .param
  runId := runId
  timestamp := now.toNat
  data := [("name", .str param.1), ("value", .str param.2)]

def tagEvent (runId : String) (now : F64) (tag : String × String) : Event where
  type := .tag
  runId := runId
  timestamp := now.toNat
  data := [("key", .str tag.1), ("value", .str tag.2)]

def nextStep (s : RunState) : Option Int → Int
  | none => s.step + 1
  | some step => max s.step (step + 1)

def log (data : List (String × LogValue)) (step : Option Int) (timestamp : Option F64) (now : F64) (s : RunState) :
    List Event × RunState :=
  if s.finished then ([], s)
  else
    let items := data.flatMap (fun entry => metricItems entry.1 entry.2)
    (items.map (metricEvent s.runId (step.getD s.step) (orTime timestamp now)), { s with step := nextStep s step })

def Call.run : Call → RunState → List Event × RunState
  | .log data step timestamp now, s => RunLogging.log data step timestamp now s
  | .logParams params now, s => (if s.finished then [] else params.map (paramEvent s.runId now), s)
  | .logTags tags now, s => (if s.finished then [] else tags.map (tagEvent s.runId now), s)

def logged : RunState → List Call → List Event
  | _, [] => []
  | s, call :: calls => (call.run s).1 ++ logged (call.run s).2 calls

end MLRunX.RunLogging
