import FieldRules.Audit.Registry
import FieldRules.Record.Event

/-!
Sinks: where the runs of rules are reported to. A sink notes them in the log and tells plugins; a
plugin that fails leaves a warning and nothing else.
-/

namespace FieldRules

/-- What is reported to. -/
inductive Sink
  | silent
  /-- With or without lines in the log and plugins, and the event to take when none is known. -/
  | audit (enabled plugins : Bool) (trigger : Trigger)
  deriving DecidableEq

/-- The lines that a report left, and the notices that reached plugins. -/
structure Trace where
  lines : List LogLine := []
  deliveries : List Delivery := []
  deriving DecidableEq

/-- One trace after another. -/
def Trace.andThen (t u : Trace) : Trace :=
  ⟨t.lines ++ u.lines, t.deliveries ++ u.deliveries⟩

/-- Traces one after another. -/
def Trace.join (ts : List Trace) : Trace :=
  ⟨ts.flatMap (·.lines), ts.flatMap (·.deliveries)⟩

/-- The record of a clause without what it leaves open. -/
def Clause.brief (c : Clause) : Value :=
  match c.toRecord with
  | .map es => .map (es.filter fun e => e.2 != .null)
  | v => v

namespace Notice

/-- The part that the lines on notices come from. -/
def logger : String :=
  "fieldrules.audit"

/-- The line on a notice. -/
def line : Notice → LogLine
  | .evaluation e => {
      logger, level := .debug, event := "rule.evaluated"
      details := [("targets", .text e.targets), ("conditions_met", .bool e.met),
        ("conditions", .list (e.conditions.map Clause.brief))] }
  | .changes trigger cs => {
      logger, level := .info, event := "fields.changed"
      details := [("trigger", .text trigger.kind.name), ("field", .ofOption trigger.field),
        ("count", .int cs.length), ("undoable", .bool trigger.kind.isUndoable)] }

end Notice

namespace Sink

/-- The event to take when none is known. -/
def defaultTrigger : Trigger :=
  { kind := .rulesChanged }

/-- The sink of a run that none was given for. -/
def default : Sink :=
  .audit true false defaultTrigger

/-- The warning about a plugin that failed. -/
def failure (hook : Hook) : LogLine :=
  { logger := "fieldrules.engine.audit", level := .warning,
    event := "Audit hook " ++ hook.name ++ " failed" }

/-- Reports a notice. -/
def report (s : Sink) (r : Registry) (n : Notice) (host : Host := .usual) : Trace :=
  match s with
  | .silent => {}
  | .audit enabled plugins _ =>
    let lines := if enabled then [n.line] else []
    let (deliveries, failed) :=
      if plugins then host.call n (r.listeners n.hook) else ([], false)
    ⟨lines ++ if failed then [failure n.hook] else [], deliveries⟩

/-- Reports the evaluation of a rule. -/
def reportEvaluation (s : Sink) (r : Registry) (e : Evaluation) (host : Host := .usual) : Trace :=
  s.report r (.evaluation e) host

/-- Reports changes, if there are any. -/
def reportChanges (s : Sink) (r : Registry) (changes : List Change) (trigger : Option Trigger)
    (host : Host := .usual) : Trace :=
  match s, changes with
  | .audit _ _ usual, _ :: _ => s.report r (.changes (trigger.getD usual) changes) host
  | _, _ => {}

/-- The line on the end of a run. -/
def summary (rules : List Rule) (o : Outcome) : LogLine :=
  { logger := "fieldrules.engine.apply", level := .debug,
    event := "Applied " ++ toString rules.length ++ " rules, " ++ toString o.changes.length ++
      " changes" }

/-- Reports a run: its evaluations one by one and, when it came to an end, all changes at once. -/
def reportRun (s : Sink) (r : Registry) (rules : List Rule) (trigger : Option Trigger) (run : Run)
    (host : Host := .usual) : Trace :=
  let evaluations := Trace.join (run.evaluations.map fun e => s.reportEvaluation r e host)
  match run.outcome with
  | .error _ => evaluations
  | .ok o =>
    (evaluations.andThen { lines := [summary rules o] }).andThen
      (s.reportChanges r o.changes trigger host)

end Sink

end FieldRules
