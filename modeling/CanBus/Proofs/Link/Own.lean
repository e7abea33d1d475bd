import CanBus.Proofs.Link.Reconfigure
import Mathlib.Data.List.Forall2

/-!
What is changed of a link table on behalf of one name. A request is for an index, and the index is
that of the entry with the name only as long as the entry was looked up in the same table; `Own`
says so of a link in hand, and `Tends` of a whole operation that it changes no entry but that one.
-/

namespace CanBus

open Kernel

/-! ## Tables -/

/-- An entry with this name may come up or go down and get another bitrate and queue length; any
other is left as it is. -/
structure Link.Tended (name : String) (l l' : Link) : Prop where
  sameName : l'.name = l.name
  sameIndex : l'.index = l.index
  sameKind : l'.kind = l.kind
  other : l.name ≠ name → l' = l

/-- The same entries in the same order, and only those with the name may differ. -/
def LinkTable.Tended (name : String) (t t' : LinkTable) : Prop :=
  List.Forall₂ (Link.Tended name) t t'

namespace LinkTable

variable {name : String} {t t₁ t' : LinkTable} {l l' : Link}

theorem Tended.refl (name : String) (t : LinkTable) : t.Tended name t :=
  List.forall₂_same.mpr fun _ _ => ⟨rfl, rfl, rfl, fun _ => rfl⟩

theorem Tended.trans (h₁ : t.Tended name t₁) (h₂ : t₁.Tended name t') :
    t.Tended name t' := by
  induction h₁ generalizing t' with
  | nil => exact h₂
  | cons hl _ ih =>
    cases h₂ with
    | cons hm h₂ =>
      refine .cons ⟨hm.sameName.trans hl.sameName, hm.sameIndex.trans hl.sameIndex,
        hm.sameKind.trans hl.sameKind, ?_⟩ (ih h₂)
      intro hne
      rw [hm.other (hl.sameName ▸ hne), hl.other hne]

theorem Tended.indices (h : t.Tended name t') : t'.map Link.index = t.map Link.index := by
  induction h with
  | nil => rfl
  | cons hl _ ih => rw [List.map_cons, List.map_cons, hl.sameIndex, ih]

theorem Tended.distinct (h : t.Tended name t') (hd : t.Distinct) : t'.Distinct := by
  rw [Distinct, h.indices]
  exact hd

/-- Among distinct indices only the entry that was there has the index of the new one. -/
theorem tended_put (hd : t.Distinct) (hl : l ∈ t) (h : l.Tended name l') :
    t.Tended name (t.put l') := by
  refine List.forall₂_map_right_iff.mpr (List.forall₂_same.mpr fun m hm => ?_)
  by_cases hi : m.index = l'.index
  · have hml : m = l := hd.eq_of_index hl hm (hi.trans h.sameIndex)
    rw [if_pos hi, hml]
    exact h
  · rw [if_neg hi]
    exact ⟨rfl, rfl, rfl, fun _ => rfl⟩

end LinkTable

/-! ## Operations -/

/-- Distinct indices are enough for no other entry to be changed. -/
def Tends (name : String) (k k' : Kernel) : Prop :=
  k.links.Distinct → k.links.Tended name k'.links

namespace Tends

variable {name : String} {k k₁ k' : Kernel}

theorem of_same (h : k'.links = k.links) : Tends name k k' := fun _ => h ▸ .refl name k.links

theorem trans (h₁ : Tends name k k₁) (h₂ : Tends name k₁ k') : Tends name k k' :=
  fun hd => (h₁ hd).trans (h₂ ((h₁ hd).distinct hd))

end Tends

instance (name : String) : Lenient (Tends name) where
  refl _ := .of_same rfl
  trans := Tends.trans
  logged _ _ _ _ := .of_same rfl
  recorded _ _ _ _ := .of_same rfl
  scripted _ _ _ _ := .of_same rfl
  replied _ _ := .of_same rfl

/-- What asks for no change makes none. -/
theorem Asks.tends {k k' : Kernel} (h : Asks [] k k') (name : String) : Tends name k k' :=
  .of_same h.links

theorem Keeps.tends {α : Type} {m : System α} (h : Keeps (Asks []) m) (name : String) :
    Keeps (Tends name) m := fun k => (h k).tends name

/-! ## Links in hand -/

/-- The link is the entry of the table with this name, and the only one with its index. -/
structure Own (name : String) (l : Link) (k : Kernel) : Prop where
  distinct : k.links.Distinct
  mem : l ∈ k.links
  named : l.name = name

namespace Own

variable {name : String} {l l' : Link} {k k' : Kernel} {cs : List LinkChange}

theorem of_resolve (hd : k.links.Distinct)
    (hr : (Controller.table.resolve name).run.run k = (.ok l, k')) : Own name l k' := by
  have hlinks : k'.links = k.links := Link.links_of_resolve hr
  obtain ⟨-, hf⟩ := Link.found_of_resolve hr
  rw [← hlinks] at hd hf
  exact ⟨hd, List.mem_of_find?_eq_some hf, by simpa using List.find?_some hf⟩

theorem carried (h : Own name l k) (hc : Carried l k cs l' k') :
    k.links.Tended name k'.links ∧ Own name l' k' := by
  have hname : l'.name = l.name := by rw [hc.link, LinkChange.name_foldl]
  have hkind : l'.kind = l.kind := by rw [hc.link, LinkChange.kind_foldl]
  have hput := LinkTable.tended_put h.distinct h.mem
    ⟨hname, hc.index, hkind, fun hne => absurd h.named hne⟩
  rw [← hc.links] at hput
  exact ⟨hput, hc.distinct h.distinct, hc.mem h.mem, hname.trans h.named⟩

end Own

namespace Link

variable {name : String} {l : Link} {k : Kernel}

/-- A change of a link that was looked up, and the link as it is then. -/
theorem change_own (h : Own name l k) (c : LinkChange) :
    let o := (change .table l c).run.run k
    k.links.Tended name o.2.links ∧ ∀ p, o.1 = .ok p → Own name p.1 o.2 := by
  obtain ⟨l', k', hr, hc⟩ := change_table h.distinct h.mem c
  obtain ⟨ht, ho⟩ := h.carried hc
  rw [hr]
  refine ⟨ht, fun p hp => ?_⟩
  cases hf : (k.refused (l.issued c)).head? with
  | some f =>
    rw [hf] at hp
    cases hp
  | none =>
    rw [hf] at hp
    cases hp
    exact ho

theorem tends_prepare (ctl : Controller) (name : String) (b q : UInt32) :
    Keeps (Tends name) (prepare ctl name b q).run := by
  cases ctl with
  | netlink => exact keeps_prepare Controller.keeping_netlink name b q
  | table =>
    intro k hd
    rcases hr : (Controller.table.resolve name).run.run k with ⟨f | l, k₁⟩
    · obtain ⟨hrun, -, hlinks⟩ := prepare_lost hr b q
      rw [hrun, hlinks]
      exact .refl name k.links
    · have ho := Own.of_resolve hd hr
      obtain ⟨l', k', hrun, hc⟩ := prepare_found ho.distinct ho.mem hr b q
      have ht := (ho.carried hc).1
      rw [links_of_resolve hr] at ht
      rw [hrun]
      exact ht

theorem tends_reconfigure (ctl : Controller) (name : String) (b q : UInt32) :
    Keeps (Tends name) (reconfigure ctl name b q).run := by
  cases ctl with
  | netlink => exact keeps_reconfigure Controller.keeping_netlink name b q
  | table =>
    intro k hd
    rw [reconfigure_eq, Fallible.run_bind]
    rcases hr : (Controller.table.resolve name).run.run k with ⟨f | l, k₁⟩ <;>
      have hlinks : k₁.links = k.links := links_of_resolve hr
    · dsimp only
      rw [hlinks]
      exact .refl name k.links
    have ho := Own.of_resolve hd hr
    obtain ⟨made, f?, l', k', hrun, hc, -⟩ :=
      steps_table ho.distinct ho.mem (nodup_reconfiguration b q)
    rw [← hlinks]
    dsimp only
    rw [hrun]
    exact (ho.carried hc).1

/-- Taking down the link with a name, if it is found. -/
theorem tends_takeDown (ctl : Controller) {l : Link} {k k₁ : Kernel}
    (hr : (ctl.resolve name).run.run k = (.ok l, k₁)) :
    Tends name k ((setAdmin ctl l false).run.run k₁).2 := by
  cases ctl with
  | netlink =>
    have hresolve : Tends name k k₁ := by
      have h := Controller.keeping_netlink.resolve (R := Tends name) name k
      rw [hr] at h
      exact h
    exact hresolve.trans (keeps_change Controller.keeping_netlink l (.admin false) k₁)
  | table =>
    intro hd
    rw [← links_of_resolve hr]
    exact (change_own (Own.of_resolve hd hr) (.admin false)).1

end Link

end CanBus
