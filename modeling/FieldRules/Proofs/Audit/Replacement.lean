import FieldRules.Proofs.Audit.Session

/-! Makers give way to the plugins that are made from them. After installed plugins were looked for,
no maker is left whose marked methods are found: a plugin made from it bears its name, or none could
be made and the name is free. Plugins that stand for themselves keep their places, and so do makers
whose marked methods are passed over. -/
namespace FieldRules

/-- Whether a plugin has yet to be made, from a maker whose marked methods are found. -/
def Plugin.isUnmade (p : Plugin) : Bool :=
  !p.isObject && p.showsMethods

theorem Plugin.isUnmade_eq_false {p : Plugin} :
    p.isUnmade = false ↔ p.isObject = true ∨ ∀ m ∈ p.methods, isFound m = false := by
  simp [isUnmade, showsMethods, or_iff_not_imp_left]

/-- A plugin was made from a maker, and reacts as the maker has it. -/
def Plugin.MadeFrom (q p : Plugin) : Prop :=
  ∃ n, q = { p with form := .object, copy := n }

theorem Plugin.MadeFrom.isUnmade {p q : Plugin} (h : q.MadeFrom p) : q.isUnmade = false := by
  obtain ⟨n, rfl⟩ := h
  rfl

namespace Registry

variable {host : Host} {r r' s : Registry} {p : Plugin} {name : String} {installed : List EntryPoint}
  {lines : List LogLine}

theorem plugins_add (h : r.add host name p = (s, none)) :
    s.plugins = r.plugins ++ [(name, p)] ∧ name ∉ r.names := by
  have hadding := r.adding_add host name p
  rw [h] at hadding
  cases hadding with
  | entered hname hp hfits => exact ⟨plugins_connectAll _ _, hname⟩

/-- Plugins are loaded from the entry points of the group whose names are free. -/
theorem plugins_load (h : r.load host installed = (s, none)) : ∃ found,
    s.plugins = r.plugins ++ found ∧
    (∀ e ∈ found, ∃ point ∈ installed,
      point.group = entryGroup ∧ point.name ∉ r.names ∧ e = (point.name, point.plugin)) ∧
    ∀ point ∈ installed, point.group = entryGroup → point.name ∈ s.names := by
  induction installed generalizing r with
  | nil =>
    cases h
    exact ⟨[], by simp, by simp, by simp⟩
  | cons point installed ih =>
    unfold load at h
    split_ifs at h with hskip
    · obtain ⟨found, hplugins, hfound, hall⟩ := ih h
      refine ⟨found, hplugins, fun e he => ?_, List.forall_mem_cons.mpr ⟨fun hgroup => ?_, hall⟩⟩
      · obtain ⟨point', hmem, hpoint⟩ := hfound e he
        exact ⟨point', List.mem_cons_of_mem _ hmem, hpoint⟩
      · rw [names, hplugins, List.map_append]
        exact List.mem_append_left _ (hskip.resolve_left (not_not.mpr hgroup))
    · obtain ⟨hgroup, hfree⟩ := not_or.mp hskip
      split at h
      · rename_i r₁ hadd
        obtain ⟨hadded, -⟩ := plugins_add hadd
        obtain ⟨found, hplugins, hfound, hall⟩ := ih h
        have hs : s.plugins = r.plugins ++ (point.name, point.plugin) :: found := by
          rw [hplugins, hadded, List.append_assoc, List.singleton_append]
        refine ⟨(point.name, point.plugin) :: found, hs, List.forall_mem_cons.mpr ⟨?_, ?_⟩,
          List.forall_mem_cons.mpr ⟨fun _ => ?_, hall⟩⟩
        · exact ⟨point, List.mem_cons_self, not_not.mp hgroup, hfree, rfl⟩
        · intro e he
          obtain ⟨point', hmem, hgroup', hfree', heq⟩ := hfound e he
          refine ⟨point', List.mem_cons_of_mem _ hmem, hgroup', fun hname => hfree' ?_, heq⟩
          rw [names, hadded, List.map_append]
          exact List.mem_append_left _ hname
        · simp [names, hs]
      · cases h

/-- What becomes of the first of some plugins when makers are replaced. -/
theorem make_cons_cases {rest : List (String × Plugin)}
    (h : r.make host ((name, p) :: rest) = (r', lines, none)) :
    (p.isUnmade = false ∧ ∃ lines, r.make host rest = (r', lines, none)) ∨
    (p.isUnmade = true ∧ p.form = .maker false ∧
      ∃ lines, (r.forget p).make host rest = (r', lines, none)) ∨
    (p.isUnmade = true ∧ p.form = .maker true ∧
      ∃ (s : Registry) (q : Plugin) (lines : List LogLine), q.MadeFrom p ∧
        s.plugins = (r.forget p).plugins ++ [(name, q)] ∧
        s.make host rest = (r', lines, none)) := by
  unfold make at h
  split at h
  · rename_i hform hshows
    have hunmade : p.isUnmade = true := by simp [Plugin.isUnmade, Plugin.isObject, hform, hshows]
    split at h
    · rename_i s hadd
      obtain ⟨hadded, -⟩ := plugins_add hadd
      rcases hmake : s.make host rest with ⟨s', lines', error⟩
      rw [hmake] at h
      cases h
      exact .inr (.inr ⟨hunmade, hform, s, _, lines', ⟨_, rfl⟩, hadded, hmake⟩)
    · cases h
  · rename_i hform hshows
    have hunmade : p.isUnmade = true := by simp [Plugin.isUnmade, Plugin.isObject, hform, hshows]
    rcases hmake : (r.forget p).make host rest with ⟨s', lines', error⟩
    rw [hmake] at h
    cases h
    exact .inr (.inl ⟨hunmade, hform, lines', rfl⟩)
  · rename_i hsucceeds hfails
    refine .inl ⟨?_, lines, h⟩
    cases hform : p.form with
    | object => simp [Plugin.isUnmade, Plugin.isObject, hform]
    | maker succeeds =>
      cases hshows : p.showsMethods with
      | false => simp [Plugin.isUnmade, hshows]
      | true =>
        cases succeeds with
        | true => exact absurd hshows (hsucceeds hform)
        | false => exact absurd hshows (hfails hform)

/-- Whether a plugin is a maker among those that are replaced. -/
def isReplaced (order : List (String × Plugin)) (p : Plugin) : Bool :=
  p.isUnmade && order.any fun e => e.2 == p

theorem isReplaced_cons_of_made {rest : List (String × Plugin)} (h : p.isUnmade = false)
    (q : Plugin) : isReplaced ((name, p) :: rest) q = isReplaced rest q := by
  unfold isReplaced
  cases hq : p == q with
  | true => rw [← beq_iff_eq.mp hq, h, Bool.false_and, Bool.false_and]
  | false => rw [List.any_cons, hq, Bool.false_or]

theorem filter_forget (name : String) {rest : List (String × Plugin)} (h : p.isUnmade = true) :
    (r.forget p).plugins.filter (fun e => !isReplaced rest e.2) =
      r.plugins.filter fun e => !isReplaced ((name, p) :: rest) e.2 := by
  rw [forget, List.filter_filter]
  refine List.filter_congr fun e _ => ?_
  unfold isReplaced
  cases he : p == e.2 with
  | true =>
    rw [beq_iff_eq.mp he] at h
    simp [h, beq_iff_eq.mp he]
  | false =>
    have hne : (e.2 != p) = true := bne_iff_ne.mpr (Ne.symm (by simpa using he))
    rw [List.any_cons, he, Bool.false_or, hne, Bool.and_true]

/-- A plugin is put under the name of a maker. -/
def Makes (e m : String × Plugin) : Prop :=
  e.2.isUnmade = true ∧ e.2.form = .maker true ∧ m.1 = e.1 ∧ m.2.MadeFrom e.2

/-- Replacing makers takes them out of the register, and puts at its end a plugin for each of them
from which one can be made. -/
theorem plugins_make {order : List (String × Plugin)} (h : r.make host order = (r', lines, none)) :
    ∃ made, r'.plugins = r.plugins.filter (fun e => !isReplaced order e.2) ++ made ∧
      (∀ m ∈ made, ∃ e ∈ order, Makes e m) ∧
      ∀ e ∈ order, e.2.isUnmade = true → e.2.form = .maker true → ∃ m ∈ made, Makes e m := by
  induction order generalizing r lines with
  | nil =>
    cases h
    exact ⟨[], by simp [isReplaced], by simp, by simp⟩
  | cons e rest ih =>
    obtain ⟨name, p⟩ := e
    rcases make_cons_cases h with ⟨hmade, lines, h⟩ | ⟨hunmade, hform, lines, h⟩ |
      ⟨hunmade, hform, s, q, lines, hq, hs, h⟩ <;> obtain ⟨made, hplugins, hsound, hall⟩ := ih h
    · refine ⟨made, ?_, fun m hm => ?_, List.forall_mem_cons.mpr ⟨?_, hall⟩⟩
      · simpa only [isReplaced_cons_of_made hmade] using hplugins
      · exact (hsound m hm).imp fun e he => ⟨List.mem_cons_of_mem _ he.1, he.2⟩
      · simp [hmade]
    · refine ⟨made, ?_, fun m hm => ?_, List.forall_mem_cons.mpr ⟨?_, hall⟩⟩
      · rw [hplugins, filter_forget name hunmade]
      · exact (hsound m hm).imp fun e he => ⟨List.mem_cons_of_mem _ he.1, he.2⟩
      · simp [hform]
    · have hmakes : Makes (name, p) (name, q) := ⟨hunmade, hform, rfl, hq⟩
      refine ⟨(name, q) :: made, ?_, List.forall_mem_cons.mpr ⟨?_, fun m hm => ?_⟩,
        List.forall_mem_cons.mpr ⟨fun _ _ => ?_, fun e he hu hf => ?_⟩⟩
      · rw [hplugins, hs, List.filter_append, filter_forget name hunmade]
        simp [isReplaced, hq.isUnmade]
      · exact ⟨(name, p), List.mem_cons_self, hmakes⟩
      · exact (hsound m hm).imp fun e he => ⟨List.mem_cons_of_mem _ he.1, he.2⟩
      · exact ⟨(name, q), List.mem_cons_self, hmakes⟩
      · exact (hall e he hu hf).imp fun m hm => ⟨List.mem_cons_of_mem _ hm.1, hm.2⟩

/-- When all plugins of a register are gone through, those that stand are the ones that need not be
made, and the ones that were made. -/
theorem mem_plugins_make {order : List (String × Plugin)} (horder : order.Perm r.plugins)
    (h : r.make host order = (r', lines, none)) :
    ∃ made : List (String × Plugin),
      (∀ e, e ∈ r'.plugins ↔ e ∈ r.plugins ∧ e.2.isUnmade = false ∨ e ∈ made) ∧
      (∀ m ∈ made, ∃ e ∈ r.plugins, Makes e m) ∧
      ∀ e ∈ r.plugins, e.2.isUnmade = true → e.2.form = .maker true → ∃ m ∈ made, Makes e m := by
  obtain ⟨made, hplugins, hsound, hall⟩ := plugins_make h
  have hkept : r'.plugins = r.plugins.filter (fun e => !e.2.isUnmade) ++ made := by
    rw [hplugins]
    congr 1
    refine List.filter_congr fun e he => ?_
    have hany : order.any (fun e' => e'.2 == e.2) = true :=
      List.any_eq_true.mpr ⟨e, horder.mem_iff.mpr he, beq_self_eq_true _⟩
    rw [isReplaced, hany, Bool.and_true]
  refine ⟨made, by simp [hkept], fun m hm => ?_, fun e he => hall e (horder.mem_iff.mpr he)⟩
  exact (hsound m hm).imp fun e he => ⟨horder.mem_iff.mp he.1, he.2⟩

/-- A maker from which no plugin can be made leaves its name free. -/
theorem not_mem_names_make {order : List (String × Plugin)} {e : String × Plugin}
    (hnodup : r.names.Nodup) (horder : order.Perm r.plugins)
    (h : r.make host order = (r', lines, none)) (he : e ∈ r.plugins)
    (hunmade : e.2.isUnmade = true) (hform : e.2.form = .maker false) :
    e.1 ∉ r'.names := by
  obtain ⟨made, hmem, hsound, -⟩ := mem_plugins_make horder h
  -- whatever bears the name is the maker itself, or made from it: names stand once each
  have hself : ∀ e' ∈ r.plugins, e'.1 = e.1 → e' = e := fun e' he' heq =>
    List.inj_on_of_nodup_map hnodup he' he heq
  intro hname
  obtain ⟨e', he', hname⟩ := List.mem_map.mp hname
  rcases (hmem e').mp he' with ⟨hold, hmade⟩ | hm
  · rw [hself e' hold hname, hunmade] at hmade
    exact Bool.noConfusion hmade
  · obtain ⟨maker, hmaker, -, hsucceeds, hname', -⟩ := hsound e' hm
    rw [hself maker hmaker (hname'.symm.trans hname), hform] at hsucceeds
    cases hsucceeds

/-- After installed plugins were looked for, whatever came before and in whatever order makers were
replaced, no maker whose marked methods are found is left among the plugins. A plugin made from it
bears its name, or, where none could be made, its name is free. All others are still there under
their names, and nothing else is; names stand once each. A maker is among those others if the names
of all its marked methods start with an underscore. -/
theorem Session.discovery_settles (hr : r.Session host)
    (htakes : ∀ point ∈ installed, host.Takes point.plugin) :
    r.names.Nodup ∧
    r.Discovery host installed (r.discover installed host).1 (r.discover installed host).2.2 ∧
    ∀ r', r.Discovery host installed r' none →
      r'.names.Nodup ∧ (∀ p ∈ r'.members, p.isUnmade = false) ∧
      ∃ found, (∀ e ∈ found, ∃ point ∈ installed, point.group = entryGroup ∧
          point.name ∉ r.names ∧ e = (point.name, point.plugin)) ∧
        (∀ point ∈ installed, point.group = entryGroup →
          ∃ p, (point.name, p) ∈ r.plugins ++ found) ∧
        (∀ e ∈ r.plugins ++ found,
          e.2.isObject = true ∨ (∀ m ∈ e.2.methods, Plugin.isFound m = false) →
          e ∈ r'.plugins) ∧
        (∀ e ∈ r.plugins ++ found, e.2.isUnmade = true → e.2.form = .maker true →
          ∃ q, q.MadeFrom e.2 ∧ (e.1, q) ∈ r'.plugins) ∧
        (∀ e ∈ r.plugins ++ found, e.2.isUnmade = true → e.2.form = .maker false →
          e.1 ∉ r'.names) ∧
        ∀ e ∈ r'.plugins, e ∈ r.plugins ++ found ∨
          ∃ p, (e.1, p) ∈ r.plugins ++ found ∧ e.2.MadeFrom p := by
  refine ⟨hr.coherent.names_nodup, r.discovery_discover host installed, fun r' hd => ?_⟩
  have hnames := (hr.discover htakes hd).coherent.names_nodup
  cases hd with
  | @done s s' order lines hload horder hmake =>
    have hs : s.Coherent := by
      have hs := hr.coherent.load htakes
      rwa [hload] at hs
    obtain ⟨found, hplugins, hfound, hloaded⟩ := plugins_load hload
    obtain ⟨made, hmem, hsound, hall⟩ := mem_plugins_make horder hmake
    refine ⟨hnames, ?_, found, hfound, ?_, ?_, ?_, ?_, ?_⟩
    · intro p hp
      obtain ⟨e, he, rfl⟩ := List.mem_map.mp hp
      rcases (hmem e).mp he with ⟨-, hmade⟩ | hm
      · exact hmade
      · obtain ⟨_, -, -, -, -, hfrom⟩ := hsound e hm
        exact hfrom.isUnmade
    · intro point hpoint hgroup
      obtain ⟨e, he, hname⟩ := List.mem_map.mp (hloaded point hpoint hgroup)
      exact ⟨e.2, hname ▸ hplugins ▸ he⟩
    · intro e he hkept
      exact (hmem e).mpr (.inl ⟨hplugins ▸ he, Plugin.isUnmade_eq_false.mpr hkept⟩)
    · intro e he hunmade hform
      obtain ⟨m, hm, -, -, hname, hfrom⟩ := hall e (hplugins ▸ he) hunmade hform
      exact ⟨m.2, hfrom, (hmem _).mpr (.inr (hname ▸ hm))⟩
    · intro e he hunmade hform
      have hfree := not_mem_names_make hs.names_nodup horder hmake (hplugins ▸ he) hunmade hform
      exact hfree
    · intro e he
      rw [← hplugins]
      rcases (hmem e).mp he with ⟨hold, -⟩ | hm
      · exact .inl hold
      · obtain ⟨maker, hmaker, -, -, hname, hfrom⟩ := hsound e hm
        exact .inr ⟨maker.2, hname ▸ hmaker, hfrom⟩

/-- One can be made from it. -/
def greeter : Plugin where
  id := 13
  label := "greeter"
  form := .maker true
  onChanges := some {}

/-- None can be made from it. -/
def absentee : Plugin where
  id := 14
  label := "absentee"
  form := .maker false
  onEvaluation := some {}

/-- One can be made from it, but its method is passed over. -/
def hermit : Plugin where
  id := 15
  label := "hermit"
  form := .maker true
  onChanges := some { method := some "_on_changes" }

/-- A register with a plugin and two makers. -/
def foyer : Registry :=
  ((lobby.register "greeter" greeter).1.register "hermit" hermit).1

/-- An entry point with a maker that fails. -/
def invited : List EntryPoint :=
  [{ group := entryGroup, name := "absentee", plugin := absentee }]

/-- The plugin keeps its place, one maker is replaced and one is gone; the maker whose method has a
name with an underscore in front is left as it was. -/
theorem foyer_discovery_settles : ∃ r', foyer.Discovery .usual invited r' none ∧
    (∀ p ∈ r'.members, p.isUnmade = false) ∧ ("usher", usher) ∈ r'.plugins ∧
    (∃ q, q.MadeFrom greeter ∧ ("greeter", q) ∈ r'.plugins) ∧ "absentee" ∉ r'.names ∧
    ("hermit", hermit) ∈ r'.plugins := by
  have hback := Host.rollsBack_usual
  have hr : foyer.Session .usual :=
    .register (.register lobby_session "greeter" (.inl hback)) "hermit" (.inl hback)
  have htakes : ∀ point ∈ invited, Host.usual.Takes point.plugin := fun _ _ => .inl hback
  obtain ⟨-, hd, hsettled⟩ := hr.discovery_settles htakes
  have hdone : (foyer.discover invited).2.2 = none := by decide
  rw [hdone] at hd
  obtain ⟨-, hmade, found, hfound, hloaded, hkept, hreplaced, hdropped, -⟩ := hsettled _ hd
  refine ⟨_, hd, hmade, hkept ("usher", usher) ?_ (.inl rfl),
    hreplaced ("greeter", greeter) ?_ (by decide) rfl, ?_, hkept ("hermit", hermit) ?_ (.inr ?_)⟩
  · exact List.mem_append_left _ (by decide)
  · exact List.mem_append_left _ (by decide)
  · obtain ⟨p, hp⟩ := hloaded _ List.mem_cons_self rfl
    rcases List.mem_append.mp hp with hold | hp
    · have hfree : "absentee" ∉ foyer.names := by decide
      exact absurd (List.mem_map_of_mem hold) hfree
    · obtain ⟨point, hpoint, -, -, heq⟩ := hfound _ hp
      obtain rfl := List.mem_singleton.mp hpoint
      rw [heq] at hp
      exact hdropped _ (List.mem_append_right _ hp) (by decide) rfl
  · exact List.mem_append_left _ (by decide)
  · decide

end Registry

end FieldRules
