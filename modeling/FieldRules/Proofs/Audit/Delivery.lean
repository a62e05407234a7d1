import FieldRules.Audit.Sink
import FieldRules.Proofs.Audit.Registry
import FieldRules.Proofs.Run.Total

/-! What reaches a plugin. A hook calls the plugins one after another, the last one first, and stops
at the first that fails: those that came before it in the register miss the notice. -/
namespace FieldRules

/-- Whether calling a plugin on a hook fails. -/
def Plugin.raises (p : Plugin) (h : Hook) : Bool :=
  (p.reaction? h).any fun r => !p.isObject || r.fails

theorem Plugin.listens_of_raises {p : Plugin} {h : Hook} (hp : p.raises h = true) :
    (p.reaction? h).isSome := by
  cases hr : p.reaction? h with
  | none => simp [raises, hr] at hp
  | some r => rfl

/-- What is relied on in how a library calls plugins that listen: one after another, up to the first
that fails. A maker fails without being told. -/
structure Host.StopsAtFailure (host : Host) : Prop where
  nil : ∀ n, host.call n [] = ([], false)
  raises : ∀ {n : Notice} {p : Plugin}, p.raises n.hook = true → ∀ ps,
    host.call n (p :: ps) = (if p.isObject then [⟨p, n⟩] else [], true)
  quiet : ∀ {n : Notice} {p : Plugin}, (p.reaction? n.hook).isSome → p.raises n.hook = false →
    ∀ ps, host.call n (p :: ps) = (⟨p, n⟩ :: (host.call n ps).1, (host.call n ps).2)

theorem Host.stopsAtFailure_usual : usual.StopsAtFailure where
  nil _ := rfl
  raises := by
    intro n p h ps
    obtain ⟨r, hr⟩ := Option.isSome_iff_exists.mp (Plugin.listens_of_raises h)
    have hr' : (!p.isObject || r.fails) = true := by simpa [Plugin.raises, hr] using h
    cases hobject : p.isObject with
    | false => simp [usual, Notice.deliver, hr, hobject]
    | true =>
      have hfails : r.fails = true := by simpa [hobject] using hr'
      simp [usual, Notice.deliver, hr, hobject, hfails]
  quiet := by
    intro n p hr h ps
    obtain ⟨r, hr⟩ := Option.isSome_iff_exists.mp hr
    have hr' : (!p.isObject || r.fails) = false := by simpa [Plugin.raises, hr] using h
    obtain ⟨hobject, hfails⟩ := Bool.or_eq_false_iff.mp hr'
    simp [usual, Notice.deliver, hr, hobject, hfails]

namespace Host.StopsAtFailure

variable {host : Host} {n : Notice} {p : Plugin}

/-- A notice goes on to more plugins unless one of those before them fails. -/
theorem call_append (hcalls : host.StopsAtFailure) {ps : List Plugin}
    (hps : ∀ q ∈ ps, (q.reaction? n.hook).isSome) (qs : List Plugin) :
    (host.call n (ps ++ qs)).1 = (host.call n ps).1 ++
      if ps.any (·.raises n.hook) then [] else (host.call n qs).1 := by
  induction ps with
  | nil => simp [hcalls.nil]
  | cons p ps ih =>
    obtain ⟨hp, hps⟩ := List.forall_mem_cons.mp hps
    rw [List.cons_append, List.any_cons]
    cases hraises : p.raises n.hook with
    | true =>
      rw [hcalls.raises hraises, hcalls.raises hraises]
      simp
    | false =>
      rw [Bool.false_or, hcalls.quiet hp hraises, hcalls.quiet hp hraises, ih hps,
        List.cons_append]

theorem mem_call (hcalls : host.StopsAtFailure) {ps : List Plugin}
    (hps : ∀ q ∈ ps, (q.reaction? n.hook).isSome) {d : Delivery} (h : d ∈ (host.call n ps).1) :
    d.plugin ∈ ps := by
  induction ps with
  | nil =>
    rw [hcalls.nil] at h
    cases h
  | cons p ps ih =>
    obtain ⟨hp, hps⟩ := List.forall_mem_cons.mp hps
    cases hraises : p.raises n.hook with
    | true =>
      rw [hcalls.raises hraises] at h
      dsimp only at h
      split_ifs at h
      · rw [List.mem_singleton.mp h]
        exact List.mem_cons_self
      · cases h
    | false =>
      rw [hcalls.quiet hp hraises] at h
      rcases List.mem_cons.mp h with rfl | h
      · exact List.mem_cons_self
      · exact List.mem_cons_of_mem _ (ih hps h)

theorem call_not_mem (hcalls : host.StopsAtFailure) {ps : List Plugin}
    (hps : ∀ q ∈ ps, (q.reaction? n.hook).isSome) (h : p ∉ ps) :
    ((host.call n ps).1.filter fun d => d.plugin == p) = [] := by
  refine List.filter_eq_nil_iff.mpr fun d hd heq => h ?_
  rw [← beq_iff_eq.mp heq]
  exact hcalls.mem_call hps hd

end Host.StopsAtFailure

namespace Trace

variable {p : Plugin}

/-- The notices that reached a plugin, in order. -/
def received (t : Trace) (p : Plugin) : List Notice :=
  (t.deliveries.filter fun d => d.plugin == p).map (·.notice)

theorem received_andThen (t u : Trace) :
    (t.andThen u).received p = t.received p ++ u.received p := by
  simp [received, andThen]

theorem received_join (ts : List Trace) : (join ts).received p = ts.flatMap (·.received p) := by
  simp [received, join, List.filter_flatMap, List.map_flatMap]

end Trace

/-- Whether a plugin is told what goes through a hook: it listens, and none of the plugins that are
called before it fails. -/
def Plugin.Hears (p : Plugin) (h : Hook) (later : List Plugin) : Prop :=
  (p.reaction? h).isSome ∧ ∀ q ∈ later, q.raises h = false

instance (p : Plugin) (h : Hook) (later : List Plugin) :
    Decidable (p.Hears h later) :=
  inferInstanceAs (Decidable (_ ∧ _))

/-- The changes that a run reports at its end. -/
def Run.changes (run : Run) : List Change :=
  match run.outcome with
  | .ok o => o.changes
  | .error _ => []

variable {host : Host} {r : Registry} {earlier later : List Plugin} {p : Plugin}

/-- Among the plugins that a hook calls, a plugin stands after those that were registered later. -/
theorem Registry.Reachable.exists_listeners (hr : r.Reachable host)
    (hp : r.members = earlier ++ p :: later) (h : Hook) : ∃ after before,
      r.listeners h = after ++ ((if (p.reaction? h).isSome then [p] else []) ++ before) ∧
      p ∉ after ∧ p ∉ before ∧ (∀ q, q ∈ after ↔ q ∈ later ∧ (q.reaction? h).isSome) ∧
      ∀ q ∈ before, (q.reaction? h).isSome := by
  have hnodup := hr.coherent.members_nodup
  rw [hp, List.nodup_append] at hnodup
  obtain ⟨-, hnodup, hearlier⟩ := hnodup
  have hlater : p ∉ later := (List.nodup_cons.mp hnodup).1
  have hearlier : p ∉ earlier := fun hmem => hearlier p hmem p List.mem_cons_self rfl
  refine ⟨(later.filter fun q => (q.reaction? h).isSome).reverse,
    (earlier.filter fun q => (q.reaction? h).isSome).reverse, ?_, ?_, ?_, ?_, ?_⟩
  · rw [hr.coherent.listeners_eq, hp, List.filter_append, List.reverse_append, List.filter_cons]
    split_ifs <;> simp
  · simp [hlater]
  · simp [hearlier]
  · simp
  · simp

variable (hcalls : host.StopsAtFailure) (hr : r.Reachable host)
include hcalls hr

theorem Sink.received_report (hp : r.members = earlier ++ p :: later)
    (n : Notice) (hquiet : p.raises n.hook = false) (enabled : Bool) (usual : Trigger) :
    ((audit enabled true usual).report r n host).received p =
      if p.Hears n.hook later then [n] else [] := by
  obtain ⟨after, before, hlisteners, hafter, hbefore, hmem, hears⟩ := hr.exists_listeners hp n.hook
  have hdeliveries : ((audit enabled true usual).report r n host).deliveries =
      (host.call n (r.listeners n.hook)).1 := rfl
  have hlistening : ∀ q ∈ after, (q.reaction? n.hook).isSome := fun q hq => ((hmem q).mp hq).2
  rw [Trace.received, hdeliveries, hlisteners, hcalls.call_append hlistening, List.filter_append,
    hcalls.call_not_mem hlistening hafter, List.nil_append]
  -- those registered later are called first, and only their failures matter
  by_cases hlater : ∀ q ∈ later, q.raises n.hook = false
  · have hany : after.any (·.raises n.hook) = false :=
      List.any_eq_false.mpr fun q hq => by simp [hlater q ((hmem q).mp hq).1]
    rw [hany]
    cases hlistens : (p.reaction? n.hook).isSome with
    | false => simp [Plugin.Hears, hlistens, hcalls.call_not_mem hears hbefore]
    | true =>
      have hhears : p.Hears n.hook later := ⟨hlistens, hlater⟩
      simp [hhears, hcalls.quiet hlistens hquiet, hcalls.call_not_mem hears hbefore]
  · have hmissed : ¬ p.Hears n.hook later := fun h => hlater h.2
    have hany : after.any (·.raises n.hook) = true := by
      simp only [not_forall, Bool.not_eq_false] at hlater
      obtain ⟨q, hq, hraises⟩ := hlater
      exact List.any_eq_true.mpr ⟨q, (hmem q).mpr ⟨hq, Plugin.listens_of_raises hraises⟩, hraises⟩
    simp [hany, hmissed]

theorem Sink.received_evaluations (hp : r.members = earlier ++ p :: later)
    (hquiet : ∀ h, p.raises h = false) (enabled : Bool) (usual : Trigger)
    (evaluations : List Evaluation) :
    (Trace.join (evaluations.map fun e =>
      (audit enabled true usual).reportEvaluation r e host)).received p =
        if p.Hears .ruleEvaluation later then evaluations.map .evaluation else [] := by
  have hone : ∀ e, ((audit enabled true usual).reportEvaluation r e host).received p =
      if p.Hears .ruleEvaluation later then [.evaluation e] else [] :=
    fun e => received_report hcalls hr hp (.evaluation e) (hquiet _) enabled usual
  rw [Trace.received_join, List.flatMap_map]
  simp only [hone]
  split_ifs
  · exact List.flatMap_pure_eq_map _ _
  · simp

theorem Sink.received_changes (hp : r.members = earlier ++ p :: later)
    (hquiet : ∀ h, p.raises h = false) (enabled : Bool) (usual : Trigger)
    (changes : List Change) (trigger : Option Trigger) :
    ((audit enabled true usual).reportChanges r changes trigger host).received p =
      if p.Hears .fieldChanges later ∧ changes ≠ [] then
        [.changes (trigger.getD usual) changes] else [] := by
  cases changes with
  | nil => simp [reportChanges, Trace.received]
  | cons c cs =>
    have hone : ((audit enabled true usual).report r
        (.changes (trigger.getD usual) (c :: cs)) host).received p =
          if p.Hears .fieldChanges later then [.changes (trigger.getD usual) (c :: cs)] else [] :=
      received_report hcalls hr hp _ (hquiet _) enabled usual
    simpa [reportChanges] using hone

omit hcalls hr

/-- The evaluations of a run, one for each rule in order. -/
theorem Run.evaluations_after {o o' : Outcome} {rules : List Rule}
    (h : (Run.after o rules).outcome = .ok o') :
    List.Forall₂ (fun rule e => ∃ met, e = Evaluation.of rule met) rules
      (Run.after o rules).evaluations := by
  induction rules generalizing o with
  | nil => exact .nil
  | cons rule rules ih =>
    unfold after at h ⊢
    cases happlies : rule.applies o.fields with
    | error fault =>
      simp only [happlies] at h
      cases h
    | ok met =>
      cases met with
      | false =>
        simp only [happlies] at h ⊢
        exact .cons ⟨false, rfl⟩ (ih h)
      | true =>
        cases henforce : o.enforce rule with
        | error fault =>
          simp only [happlies, henforce] at h
          cases h
        | ok p =>
          simp only [happlies, henforce] at h ⊢
          exact .cons ⟨true, rfl⟩ (ih h)

/-- A plugin that does not fail itself is told of every evaluation in order and then of all changes
at once, on each hook that it hears; a failure of a plugin that was registered later cuts it off
from the hook, and no failure breaks off the run. -/
theorem Sink.received_reportRun (hcalls : host.StopsAtFailure) (hr : r.Reachable host)
    (hp : r.members = earlier ++ p :: later) (hquiet : ∀ h, p.raises h = false) (enabled : Bool)
    (usual : Trigger) (fields : List Field) (rules : List Rule) (trigger : Option Trigger)
    (before : Option (List Field)) :
    let run := Run.of fields rules trigger before
    ((audit enabled true usual).reportRun r rules trigger run host).received p =
        (if p.Hears .ruleEvaluation later then run.evaluations.map .evaluation else []) ++
          (if p.Hears .fieldChanges later ∧ run.changes ≠ [] then
            [.changes (trigger.getD usual) run.changes] else []) ∧
      (∀ o, run.outcome = .ok o →
        List.Forall₂ (fun rule e => ∃ met, e = Evaluation.of rule met) rules run.evaluations) ∧
      (Field.AllWritable fields → ∃ o, run.outcome = .ok o) := by
  intro run
  refine ⟨?_, fun o ho => Run.evaluations_after ho, fun hw => ?_⟩
  · have hevaluations := received_evaluations hcalls hr hp hquiet enabled usual run.evaluations
    have hchanges := fun changes =>
      received_changes hcalls hr hp hquiet enabled usual changes trigger
    unfold reportRun Run.changes
    cases run.outcome with
    | error fault => simpa using hevaluations
    | ok o =>
      have hsummary : Trace.received { lines := [summary rules o] } p = [] := rfl
      simp only [Trace.received_andThen, hevaluations, hsummary, hchanges, List.append_nil]
  · obtain ⟨o, ho, -⟩ := Run.exists_after (o := { fields, changes := _ }) hw rules
    exact ⟨o, ho⟩

/-- A plugin that keeps what it is told. -/
def history : Plugin where
  id := 1
  label := "history"
  onChanges := some {}
  onEvaluation := some {}

/-- A plugin that fails when it is told of an evaluation. -/
def siren : Plugin where
  id := 2
  label := "siren"
  onEvaluation := some { fails := true }

/-- A plugin that fails when it is told of changes. -/
def alarm : Plugin where
  id := 3
  label := "alarm"
  onChanges := some { fails := true }

/-- A plugin between two that fail. Only the one that came later cuts it off. -/
def watched : Registry :=
  ((((({} : Registry).register "siren" siren).1.register "history" history).1).register
    "alarm" alarm).1

/-- One field that is still open. -/
def gate : List Field := [{ name := "gate" }]

/-- One rule, which closes the gate in any case. -/
def gateRules : List Rule := [{ targets := [⟨"gate", .setToValue "closed", false⟩] }]

theorem history_misses_changes : (Run.of gate gateRules none none).changes ≠ [] ∧
    ((Sink.audit true true Sink.defaultTrigger).reportRun watched gateRules none
      (Run.of gate gateRules none none)).received history =
        (Run.of gate gateRules none none).evaluations.map .evaluation := by
  have hr : watched.Reachable .usual :=
    .register (.register (.register .empty _ (.inl Host.rollsBack_usual)) _
      (.inl Host.rollsBack_usual)) _ (.inl Host.rollsBack_usual)
  have hp : watched.members = [siren] ++ history :: [alarm] := by decide
  have hquiet : ∀ h, history.raises h = false := by rintro (_ | _) <;> rfl
  obtain ⟨hreceived, -, -⟩ := Sink.received_reportRun Host.stopsAtFailure_usual hr hp hquiet true
    Sink.defaultTrigger gate gateRules none none
  have hevaluations : history.Hears .ruleEvaluation [alarm] := by decide
  have hchanges : ¬ history.Hears .fieldChanges [alarm] := by decide
  refine ⟨by decide, ?_⟩
  rw [if_pos hevaluations, if_neg fun h => hchanges h.1, List.append_nil] at hreceived
  exact hreceived

end FieldRules
