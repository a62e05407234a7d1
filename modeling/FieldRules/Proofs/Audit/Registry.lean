import FieldRules.Audit.Registry
import Mathlib.Data.List.Nodup
import Mathlib.Tactic.SplitIfs

/-! What a session makes of the register. Whatever is registered, taken out or looked for, a hook
calls those of the registered plugins that listen to it, the last one first. -/
namespace FieldRules

namespace Plugin

/-- Whether a plugin asks for nothing that a hook does not offer. -/
def fitsOn (p : Plugin) (h : Hook) : Bool :=
  (p.reaction? h).all (·.fits)

/-- Whether a plugin fits every hook. -/
def Fits (p : Plugin) : Prop :=
  ∀ h, p.fitsOn h = true

theorem hooks_perm (p : Plugin) : p.hooks.Perm Hook.all := by
  unfold hooks
  split
  · split_ifs
    · exact .swap _ _ _
    · exact .refl _
  · exact .refl _

theorem mem_hooks (p : Plugin) (h : Hook) : h ∈ p.hooks := by
  rw [p.hooks_perm.mem_iff]
  cases h <;> decide

theorem nodup_hooks (p : Plugin) : p.hooks.Nodup := by
  rw [p.hooks_perm.nodup_iff]
  decide

end Plugin

namespace Host

/-- A plugin that does not fit is taken out again, as if it were unregistered. The register does not
do this itself; where the library does not, the plugin stays as far as it was connected. -/
def RollsBack (host : Host) : Prop :=
  ∀ r p, host.afterMisfit r p = r.forget p

theorem rollsBack_usual : usual.RollsBack :=
  fun _ _ => rfl

/-- A plugin can be given to the library: it fits, or else it is taken out again. -/
def Takes (host : Host) (p : Plugin) : Prop :=
  host.RollsBack ∨ p.Fits

end Host

namespace Registry

/-- The registers that a session leads to. -/
inductive Reachable (host : Host) : Registry → Prop
  | empty : Reachable host {}
  | register {r : Registry} (h : Reachable host r) (name : String) {p : Plugin}
    (hp : host.Takes p) : Reachable host (r.register name p host).1
  | unregister {r : Registry} (h : Reachable host r) (p : Plugin) :
    Reachable host (r.unregister p).1
  | discover {r : Registry} (h : Reachable host r) {installed : List EntryPoint}
    (hp : ∀ e ∈ installed, host.Takes e.plugin) : Reachable host (r.discover installed host).1

variable {host : Host} {r : Registry} {p : Plugin} {name : String}

/-- The plugins in the order in which they came. -/
def members (r : Registry) : List Plugin :=
  r.plugins.map (·.2)

/-- Names and plugins stand once each, the plugins fit, and each hook calls those that listen to
it. -/
structure Coherent (r : Registry) : Prop where
  names_nodup : r.names.Nodup
  members_nodup : r.members.Nodup
  fits : ∀ p ∈ r.members, p.Fits
  listeners_eq : ∀ h, r.listeners h = (r.members.filter fun p => (p.reaction? h).isSome).reverse

theorem coherent_empty : Coherent {} where
  names_nodup := List.nodup_nil
  members_nodup := List.nodup_nil
  fits := by simp [members]
  listeners_eq h := by cases h <;> rfl

theorem nameOf?_eq_none : r.nameOf? p = none ↔ p ∉ r.members := by
  simp only [nameOf?, members, Option.map_eq_none_iff, List.find?_eq_none, List.mem_map,
    not_exists, not_and, beq_iff_eq]

theorem members_forget (r : Registry) (p : Plugin) :
    (r.forget p).members = r.members.filter (· != p) := by
  simp only [members, forget, List.filter_map]
  rfl

theorem listeners_forget (r : Registry) (p : Plugin) (h : Hook) :
    (r.forget p).listeners h = (r.listeners h).filter (· != p) := by
  cases h <;> rfl

theorem listeners_connect (r : Registry) (p : Plugin) (h h' : Hook) :
    (r.connect p h).listeners h' = if h = h' then p :: r.listeners h' else r.listeners h' := by
  cases h <;> cases h' <;> rfl

theorem forget_connect (r : Registry) (p : Plugin) (h : Hook) :
    (r.connect p h).forget p = r.forget p := by
  cases h <;> simp [forget, connect]

/-- The register with one more plugin, which no hook calls yet. -/
def enter (r : Registry) (name : String) (p : Plugin) : Registry :=
  { r with plugins := r.plugins ++ [(name, p)] }

theorem listeners_enter (h : Hook) : (r.enter name p).listeners h = r.listeners h := by
  cases h <;> rfl

theorem forget_enter : (r.enter name p).forget p = r.forget p := by
  simp [enter, forget]

theorem forget_connectAll (hs : List Hook) (r : Registry) :
    (connectAll p hs r).1.forget p = r.forget p := by
  induction hs generalizing r with
  | nil => rfl
  | cons h hs ih =>
    unfold connectAll
    cases p.reaction? h with
    | none => exact ih r
    | some reaction =>
      dsimp only
      split_ifs
      · rw [ih, forget_connect]
      · rfl

theorem connectAll_cons (p : Plugin) (h : Hook) (hs : List Hook) (r : Registry) :
    connectAll p (h :: hs) r =
      if p.fitsOn h then connectAll p hs (if (p.reaction? h).isSome then r.connect p h else r)
      else (r, false) := by
  rw [connectAll, Plugin.fitsOn]
  cases p.reaction? h with
  | none => simp
  | some reaction => simp

theorem connectAll_of_fits {hs : List Hook} (hfits : ∀ h ∈ hs, p.fitsOn h = true) (r : Registry) :
    (connectAll p hs r).2 = true := by
  induction hs generalizing r with
  | nil => rfl
  | cons h hs ih =>
    rw [connectAll_cons, if_pos (hfits h List.mem_cons_self)]
    exact ih (fun h' hh' => hfits h' (List.mem_cons_of_mem h hh')) _

theorem fitsOn_of_connectAll {hs : List Hook} (h : (connectAll p hs r).2 = true) :
    ∀ hook ∈ hs, p.fitsOn hook = true := by
  induction hs generalizing r with
  | nil => simp
  | cons h' hs ih =>
    rw [connectAll_cons] at h
    split_ifs at h with hfits
    · exact List.forall_mem_cons.mpr ⟨hfits, ih h⟩
    · exact List.forall_mem_cons.mpr ⟨hfits, ih h⟩

theorem plugins_connectAll (hs : List Hook) (r : Registry) :
    (connectAll p hs r).1.plugins = r.plugins := by
  induction hs generalizing r with
  | nil => rfl
  | cons h hs ih =>
    unfold connectAll
    cases p.reaction? h with
    | none => exact ih r
    | some reaction =>
      dsimp only
      split_ifs
      · rw [ih]
        cases h <;> rfl
      · rfl

theorem listeners_connectAll {hs : List Hook} (hn : hs.Nodup) (r : Registry)
    (hfits : (connectAll p hs r).2 = true) (h : Hook) :
    (connectAll p hs r).1.listeners h =
      if h ∈ hs ∧ (p.reaction? h).isSome then p :: r.listeners h else r.listeners h := by
  induction hs generalizing r with
  | nil => simp [connectAll]
  | cons h' hs ih =>
    obtain ⟨hnew, hn⟩ := List.nodup_cons.mp hn
    unfold connectAll at hfits ⊢
    cases hreaction : p.reaction? h' with
    | none =>
      simp only [hreaction] at hfits ⊢
      rw [ih hn r hfits]
      by_cases heq : h = h'
      · simp [heq, hreaction]
      · simp [heq]
    | some reaction =>
      simp only [hreaction] at hfits ⊢
      by_cases hf : reaction.fits = true
      · -- the hook does not come again, so the plugin is put in front of its listeners once
        rw [if_pos hf] at hfits ⊢
        rw [ih hn _ hfits, listeners_connect]
        by_cases heq : h = h'
        · simp [heq, hnew, hreaction]
        · simp [heq, Ne.symm heq]
      · rw [if_neg hf] at hfits
        cases hfits

namespace Coherent

theorem forget (h : r.Coherent) (p : Plugin) : (r.forget p).Coherent where
  names_nodup := h.names_nodup.sublist (List.filter_sublist.map _)
  members_nodup := by
    rw [members_forget]
    exact h.members_nodup.filter _
  fits q hq := by
    rw [members_forget] at hq
    exact h.fits q (List.mem_of_mem_filter hq)
  listeners_eq hook := by
    rw [listeners_forget, members_forget, h.listeners_eq, List.filter_reverse, List.filter_filter,
      List.filter_filter]
    simp only [Bool.and_comm]

theorem connected {r' : Registry} (h : r.Coherent) (hname : name ∉ r.names) (hp : p ∉ r.members)
    (hr : connectAll p p.hooks (r.enter name p) = (r', true)) : r'.Coherent := by
  have hplugins := plugins_connectAll (p := p) p.hooks (r.enter name p)
  have hlisteners := listeners_connectAll p.nodup_hooks (r.enter name p) (by rw [hr])
  have hfits : p.Fits := fun hook => fitsOn_of_connectAll (by rw [hr]) hook (p.mem_hooks hook)
  rw [hr] at hplugins hlisteners
  have hplugins : r'.plugins = r.plugins ++ [(name, p)] := hplugins
  have hnames : r'.names = r.names ++ [name] := by simp [names, hplugins]
  have hmembers : r'.members = r.members ++ [p] := by simp [members, hplugins]
  refine ⟨?_, ?_, ?_, fun hook => ?_⟩
  · rw [hnames, ← List.concat_eq_append]
    exact List.Nodup.concat hname h.names_nodup
  · rw [hmembers, ← List.concat_eq_append]
    exact List.Nodup.concat hp h.members_nodup
  · rw [hmembers]
    intro q hq
    rcases List.mem_append.mp hq with hq | hq
    · exact h.fits q hq
    · exact List.mem_singleton.mp hq ▸ hfits
  · rw [hlisteners hook, listeners_enter, h.listeners_eq hook, hmembers, List.filter_append,
      List.reverse_append]
    cases hreaction : p.reaction? hook <;> simp [p.mem_hooks hook, hreaction]

theorem add (h : r.Coherent) (name : String) (htakes : host.Takes p) :
    (r.add host name p).1.Coherent := by
  unfold Registry.add
  split_ifs with htaken
  · exact h
  obtain ⟨hname, hp⟩ := not_or.mp htaken
  rw [Option.not_isSome_iff_eq_none, nameOf?_eq_none] at hp
  split
  · rename_i r' hr
    exact h.connected hname hp hr
  · rename_i r' hr
    have hr : connectAll p p.hooks (r.enter name p) = (r', false) := hr
    rcases htakes with hback | hfits
    · have hforget := forget_connectAll (p := p) p.hooks (r.enter name p)
      rw [hr, forget_enter] at hforget
      rw [hback, hforget]
      exact h.forget p
    · have hall : ∀ hook ∈ p.hooks, p.fitsOn hook = true := fun hook _ => hfits hook
      have htrue := connectAll_of_fits hall (r.enter name p)
      rw [hr] at htrue
      cases htrue

theorem register (h : r.Coherent) (name : String) (hp : host.Takes p) :
    (r.register name p host).1.Coherent := by
  have hadd := h.add name hp
  unfold Registry.register
  split <;> (rename_i hr; rw [hr] at hadd; exact hadd)

theorem unregister (h : r.Coherent) (p : Plugin) : (r.unregister p).1.Coherent := by
  unfold Registry.unregister
  split_ifs
  · exact h.forget p
  · exact h

theorem load (h : r.Coherent) {installed : List EntryPoint}
    (hp : ∀ e ∈ installed, host.Takes e.plugin) : (r.load host installed).1.Coherent := by
  induction installed generalizing r with
  | nil => exact h
  | cons e es ih =>
    obtain ⟨he, hes⟩ := List.forall_mem_cons.mp hp
    unfold Registry.load
    split_ifs
    · exact ih h hes
    · have hadd := h.add e.name he
      cases hr : r.add host e.name e.plugin with
      | mk r₁ error =>
        rw [hr] at hadd
        cases error with
        | none => exact ih hadd hes
        | some error => exact hadd

theorem make (h : r.Coherent) (host : Host) {plugins : List (String × Plugin)}
    (hp : ∀ e ∈ plugins, e.2.Fits) : (r.make host plugins).1.Coherent := by
  induction plugins generalizing r with
  | nil => exact h
  | cons e rest ih =>
    obtain ⟨name, p⟩ := e
    obtain ⟨hfits, hrest⟩ := List.forall_mem_cons.mp hp
    have hforget := h.forget p
    unfold Registry.make
    split
    · -- a plugin takes the place of its maker, and fits as the maker does
      have hmade : Coherent { r.forget p with made := r.made + 1 } :=
        ⟨hforget.names_nodup, hforget.members_nodup, hforget.fits, hforget.listeners_eq⟩
      have htakes : host.Takes (r.madeFrom p) := .inr hfits
      have hadd := hmade.add name htakes
      split
      · rename_i r' hr
        rw [hr] at hadd
        exact ih hadd hrest
      · rename_i r' error hr
        rw [hr] at hadd
        exact hadd
    · exact ih hforget hrest
    · exact ih h hrest

theorem fits_of_mem_plugins (h : r.Coherent) : ∀ e ∈ r.plugins, e.2.Fits :=
  fun _ he => h.fits _ (List.mem_map_of_mem he)

theorem discover (h : r.Coherent) {installed : List EntryPoint}
    (hp : ∀ e ∈ installed, host.Takes e.plugin) : (r.discover installed host).1.Coherent := by
  have hload := h.load hp
  unfold Registry.discover
  split
  · rename_i r' error hr
    rw [hr] at hload
    exact hload
  · rename_i r' hr
    rw [hr] at hload
    have hmake := hload.make host hload.fits_of_mem_plugins
    split
    · rename_i r'' lines hr'
      rw [hr'] at hmake
      exact ⟨hmake.names_nodup, hmake.members_nodup, hmake.fits, hmake.listeners_eq⟩
    · rename_i r'' lines error hr'
      rw [hr'] at hmake
      exact hmake

end Coherent

theorem Reachable.coherent (h : r.Reachable host) : r.Coherent := by
  induction h with
  | empty => exact coherent_empty
  | register _ name hp ih => exact ih.register name hp
  | unregister _ p ih => exact ih.unregister p
  | discover _ hp ih => exact ih.discover hp

end Registry

end FieldRules
