import FieldRules.Proofs.Audit.Registry

/-! Sessions in which the makers that are found together are replaced in any order. A plugin that is
refused has been entered by then, and perhaps connected to some hooks. What is left of it is up to
the library that holds the plugins: where that takes it out again, nothing remains. -/
namespace FieldRules.Registry

/-- Looking for installed plugins, when the makers among the plugins are replaced in some order. -/
inductive Discovery (host : Host) (r : Registry) (installed : List EntryPoint) :
    Registry → Option RegistryError → Prop
  | refused {s : Registry} {error : RegistryError}
    (hload : r.load host installed = (s, some error)) :
    Discovery host r installed s (some error)
  | broken {s s' : Registry} {order : List (String × Plugin)} {lines : List LogLine}
    {error : RegistryError} (hload : r.load host installed = (s, none))
    (horder : order.Perm s.plugins) (hmake : s.make host order = (s', lines, some error)) :
    Discovery host r installed s' (some error)
  | done {s s' : Registry} {order : List (String × Plugin)} {lines : List LogLine}
    (hload : r.load host installed = (s, none)) (horder : order.Perm s.plugins)
    (hmake : s.make host order = (s', lines, none)) :
    Discovery host r installed { s' with loaded := true } none

/-- The registers that a session leads to. -/
inductive Session (host : Host) : Registry → Prop
  | empty : Session host {}
  | register {r : Registry} (h : Session host r) (name : String) {p : Plugin}
    (hp : host.Takes p) : Session host (r.register name p host).1
  | unregister {r : Registry} (h : Session host r) (p : Plugin) : Session host (r.unregister p).1
  | discover {r r' : Registry} {installed : List EntryPoint} {error : Option RegistryError}
    (h : Session host r) (hp : ∀ e ∈ installed, host.Takes e.plugin)
    (hd : r.Discovery host installed r' error) : Session host r'

variable {host : Host} {r r' : Registry} {p : Plugin} {name : String} {installed : List EntryPoint}
  {error : Option RegistryError}

theorem discovery_discover (host : Host) (r : Registry) (installed : List EntryPoint) :
    r.Discovery host installed (r.discover installed host).1 (r.discover installed host).2.2 := by
  unfold discover
  split
  · rename_i s error hload
    exact .refused hload
  · rename_i s hload
    split
    · rename_i s' lines hmake
      exact .done hload (.refl _) hmake
    · rename_i s' lines error hmake
      exact .broken hload (.refl _) hmake

theorem Coherent.make_of_perm {order : List (String × Plugin)} (h : r.Coherent) (host : Host)
    (horder : order.Perm r.plugins) : (r.make host order).1.Coherent :=
  h.make host fun e he => h.fits_of_mem_plugins e (horder.mem_iff.mp he)

theorem Coherent.discovery (h : r.Coherent) (hp : ∀ e ∈ installed, host.Takes e.plugin)
    (hd : r.Discovery host installed r' error) : r'.Coherent := by
  have hs := h.load hp
  cases hd with
  | refused hload =>
    rw [hload] at hs
    exact hs
  | @broken s s' order lines error hload horder hmake =>
    rw [hload] at hs
    have hs' := hs.make_of_perm host horder
    rw [hmake] at hs'
    exact hs'
  | @done s s' order lines hload horder hmake =>
    rw [hload] at hs
    have hs' := hs.make_of_perm host horder
    rw [hmake] at hs'
    exact ⟨hs'.names_nodup, hs'.members_nodup, hs'.fits, hs'.listeners_eq⟩

theorem Session.coherent (h : r.Session host) : r.Coherent := by
  induction h with
  | empty => exact coherent_empty
  | register _ name hp ih => exact ih.register name hp
  | unregister _ p ih => exact ih.unregister p
  | discover _ hp hd ih => exact ih.discovery hp hd

/-- A plugin that does not fit is connected to the hooks before the first that it does not fit. -/
theorem connectAll_of_misfit {before after : List Hook} {h : Hook}
    (hbefore : ∀ h' ∈ before, p.fitsOn h' = true) (hh : p.fitsOn h = false) (r : Registry) :
    connectAll p (before ++ h :: after) r = ((connectAll p before r).1, false) := by
  induction before generalizing r with
  | nil => rw [List.nil_append, connectAll_cons, hh, if_neg Bool.false_ne_true, connectAll]
  | cons h' before ih =>
    have hh' : p.fitsOn h' = true := hbefore h' List.mem_cons_self
    rw [List.cons_append, connectAll_cons, connectAll_cons, if_pos hh', if_pos hh']
    exact ih (fun h'' hh'' => hbefore h'' (List.mem_cons_of_mem h' hh'')) _

/-- What adding a plugin can do. One that does not fit is entered and connected to the hooks before
the first that it does not fit; then it is up to the library what is left. -/
inductive Adding (host : Host) (r : Registry) (name : String) (p : Plugin) :
    Registry × Option RegistryError → Prop
  | taken (h : name ∈ r.names ∨ p ∈ r.members) : Adding host r name p (r, some .taken)
  | misfit {before after : List Hook} {h : Hook} (hname : name ∉ r.names) (hp : p ∉ r.members)
    (hall : p.hooks = before ++ h :: after) (hbefore : ∀ h' ∈ before, p.fitsOn h' = true)
    (hh : p.fitsOn h = false) :
    Adding host r name p
      (host.afterMisfit (connectAll p before (r.enter name p)).1 p, some .misfit)
  | entered (hname : name ∉ r.names) (hp : p ∉ r.members) (hfits : p.Fits) :
    Adding host r name p ((connectAll p p.hooks (r.enter name p)).1, none)

theorem add_of_taken (host : Host) (h : name ∈ r.names ∨ p ∈ r.members) :
    r.add host name p = (r, some .taken) := by
  refine if_pos (h.imp_right fun hp => ?_)
  rw [Option.isSome_iff_ne_none, Ne, nameOf?_eq_none]
  exact not_not.mpr hp

theorem add_of_free (host : Host) (hname : name ∉ r.names) (hp : p ∉ r.members) :
    r.add host name p = match connectAll p p.hooks (r.enter name p) with
      | (s, true) => (s, none)
      | (s, false) => (host.afterMisfit s p, some .misfit) := by
  refine if_neg (not_or.mpr ⟨hname, ?_⟩)
  rw [nameOf?_eq_none.mpr hp]
  exact Bool.false_ne_true

theorem adding_add (host : Host) (r : Registry) (name : String) (p : Plugin) :
    r.Adding host name p (r.add host name p) := by
  by_cases htaken : name ∈ r.names ∨ p ∈ r.members
  · rw [add_of_taken host htaken]
    exact .taken htaken
  obtain ⟨hname, hp⟩ := not_or.mp htaken
  rw [add_of_free host hname hp]
  cases hmisfit : p.hooks.find? fun h => !p.fitsOn h with
  | none =>
    have hall : ∀ h ∈ p.hooks, p.fitsOn h = true := by simpa using hmisfit
    have htrue := connectAll_of_fits hall (r.enter name p)
    rw [← Prod.eta (connectAll p p.hooks (r.enter name p)), htrue]
    exact .entered hname hp fun h => hall h (p.mem_hooks h)
  | some h =>
    obtain ⟨hh, before, after, hsplit, hbefore⟩ := List.find?_eq_some_iff_append.mp hmisfit
    have hh : p.fitsOn h = false := by simpa using hh
    have hbefore : ∀ h' ∈ before, p.fitsOn h' = true := by simpa using hbefore
    rw [hsplit, connectAll_of_misfit hbefore hh]
    exact .misfit hname hp hsplit hbefore hh

theorem Coherent.forget_eq (h : r.Coherent) (hp : p ∉ r.members) : r.forget p = r := by
  have hlistener : ∀ hook, p ∉ r.listeners hook := by
    intro hook hmem
    rw [h.listeners_eq, List.mem_reverse] at hmem
    exact hp (List.mem_of_mem_filter hmem)
  have hplugins : r.plugins.filter (fun e => e.2 != p) = r.plugins := by
    refine List.filter_eq_self.mpr fun e he => bne_iff_ne.mpr ?_
    rintro rfl
    exact hp (List.mem_map_of_mem he)
  have hfilter : ∀ hook, (r.listeners hook).filter (· != p) = r.listeners hook := by
    refine fun hook => List.filter_eq_self.mpr fun q hq => bne_iff_ne.mpr ?_
    rintro rfl
    exact hlistener hook hq
  have hchanges : r.changeListeners.filter (· != p) = r.changeListeners := hfilter .fieldChanges
  have hevaluations : r.evaluationListeners.filter (· != p) = r.evaluationListeners :=
    hfilter .ruleEvaluation
  rw [Registry.forget, hplugins, hchanges, hevaluations]

theorem register_eq (host : Host) (r : Registry) (name : String) (p : Plugin) :
    r.register name p host = ((r.add host name p).1, if (r.add host name p).2 = none then
      [line .debug ("Registered plugin: " ++ name)] else [], (r.add host name p).2) := by
  unfold register
  split <;> (rename_i hadd; rw [hadd]; rfl)

/-- The state of a register when a plugin that is being added is found not to fit a hook: it has
been entered under its name and connected to the hooks before. -/
structure Halfway (r : Registry) (name : String) (p : Plugin) (half : Registry) : Prop where
  reached : connectAll p p.hooks (r.enter name p) = (half, false)
  plugins_eq : half.plugins = r.plugins ++ [(name, p)]
  listeners_eq : ∃ before h after, p.hooks = before ++ h :: after ∧ p.fitsOn h = false ∧
    ∀ h', half.listeners h' =
      if h' ∈ before ∧ (p.reaction? h').isSome then p :: r.listeners h' else r.listeners h'

theorem halfway_connectAll {before after : List Hook} {h : Hook}
    (hall : p.hooks = before ++ h :: after) (hbefore : ∀ h' ∈ before, p.fitsOn h' = true)
    (hh : p.fitsOn h = false) :
    r.Halfway name p (connectAll p before (r.enter name p)).1 := by
  have hnodup : before.Nodup := by
    have hnodup := p.nodup_hooks
    rw [hall] at hnodup
    exact (List.nodup_append.mp hnodup).1
  refine ⟨?_, ?_, before, h, after, hall, hh, ?_⟩
  · rw [hall, connectAll_of_misfit hbefore hh]
  · rw [plugins_connectAll]
    rfl
  · intro h'
    rw [listeners_connectAll hnodup _ (connectAll_of_fits hbefore _), listeners_enter]

/-- Whatever the library does with it, a plugin that does not fit is handed over half connected. -/
theorem register_halfway (host : Host) (r : Registry) (name : String) (p : Plugin)
    (h : (r.register name p host).2.2 = some .misfit) :
    ∃ half, r.Halfway name p half ∧ (r.register name p host).1 = host.afterMisfit half p := by
  rw [register_eq] at h ⊢
  have hadding := r.adding_add host name p
  generalize r.add host name p = result at h hadding
  cases hadding with
  | taken _ | entered _ _ _ => cases h
  | misfit _ _ hall hbefore hh => exact ⟨_, halfway_connectAll hall hbefore hh, rfl⟩

theorem Coherent.forget_halfway (h : r.Coherent) (hp : p ∉ r.members) {half : Registry}
    (hhalf : r.Halfway name p half) : half.forget p = r := by
  have hforget := forget_connectAll (p := p) p.hooks (r.enter name p)
  rwa [hhalf.reached, forget_enter, h.forget_eq hp] at hforget

/-- Listens to everything. -/
def usher : Plugin where
  id := 11
  label := "usher"
  onChanges := some {}
  onEvaluation := some {}

/-- Listens to changes, and asks too much of evaluations. -/
def stranger : Plugin where
  id := 12
  label := "stranger"
  onChanges := some {}
  onEvaluation := some { fits := false }

/-- A register with one plugin. -/
def lobby : Registry :=
  (({} : Registry).register "usher" usher).1

theorem lobby_session : lobby.Session .usual :=
  .register .empty _ (.inl Host.rollsBack_usual)

-- A library that leaves a misfit as it stands leaves it under its name, and on the hook before.
example :
    let host : Host := { Host.usual with afterMisfit := fun r _ => r }
    let r := (lobby.register "guest" stranger host).1
    r.names = ["usher", "guest"] ∧ r.changeListeners = [stranger, usher] := by
  decide

end FieldRules.Registry
