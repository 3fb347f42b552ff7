import FormulaEngine.Proofs.Registration
/-!
# The order of registrations

A batch can be registered exactly if each of its registrations agrees with what is known of its
name: with the catalogue, or else with the first registration of the name in the batch. Whether it
does is the same for every order of the batch, and so is what is known. So batches that come
together without a conflict may be registered in any order, and the catalogue answers the same
afterwards.
-/
namespace FormulaEngine

namespace Registry

variable {r r' r'' : Registry} {l m : List (String × FunctionSpec)}

/-- Whether no registration of a batch disagrees with the catalogue or with another one of the
batch. -/
def Agrees (r : Registry) (l : List (String × FunctionSpec)) : Prop :=
  ∀ p ∈ l, r.known l p.1 = some p.2

private theorem registerAll_snd_eq_none_iff : (r.registerAll l).2 = none ↔ r.Agrees l := by
  induction l generalizing r with
  | nil => simp [registerAll, Agrees]
  | cons p l ih =>
    obtain ⟨name, spec⟩ := p
    rw [registerAll, Agrees, List.forall_mem_cons]
    cases h : r.register name spec with
    | ok r₁ =>
      have hhead : r.known ((name, spec) :: l) name = some spec := by
        rw [← known_of_register h, known, get?_of_register h, if_pos rfl, Option.some_or]
      rw [and_iff_right hhead, ← known_of_register h]
      exact ih
    | error c =>
      obtain ⟨-, held, hheld, hne⟩ := register_eq_error_iff.mp h
      have hhead : r.known ((name, spec) :: l) name = some held := by
        rw [known, hheld, Option.some_or]
      simp [hhead, hne]

private theorem registerAll_eq_none_iff :
    r.registerAll l = (r', none) ↔ r.Agrees l ∧ (r.registerAll l).1 = r' := by
  rw [← registerAll_snd_eq_none_iff, Prod.ext_iff, and_comm]

private theorem Agrees.known_eq (h : r.Agrees l) (hperm : l.Perm m) : r.known m = r.known l := by
  funext name
  cases hm : Table.find? name m with
  | none =>
    have hl : Table.find? name l = none := by
      rw [Table.find?_eq_none_iff] at hm ⊢
      exact fun hmem => hm ((hperm.map Prod.fst).mem_iff.mp hmem)
    rw [known, known, hm, hl]
  | some spec =>
    have hmem : (name, spec) ∈ l := hperm.mem_iff.mpr (Table.mem_of_find? hm)
    have hknown : r.known l name = some spec := h (name, spec) hmem
    rw [hknown, known, hm]
    cases hheld : r.get? name with
    | none => rfl
    | some held =>
      rw [known, hheld, Option.some_or] at hknown
      exact hknown

private theorem Agrees.perm (h : r.Agrees l) (hperm : l.Perm m) : r.Agrees m := by
  intro p hp
  rw [h.known_eq hperm]
  exact h p (hperm.mem_iff.mpr hp)

/-- Whether two batches can be registered one after the other without a conflict, and what catalogue
results. -/
def Takes (r : Registry) (l m : List (String × FunctionSpec)) (r' : Registry) : Prop :=
  ∃ r₁, r.registerAll l = (r₁, none) ∧ r₁.registerAll m = (r', none)

private theorem takes_iff : r.Takes l m r' ↔ r.registerAll (l ++ m) = (r', none) := by
  constructor
  · rintro ⟨r₁, hl, hm⟩
    rw [registerAll_append hl, hm]
  · intro h
    cases hl : r.registerAll l with
    | mk r₁ conflict =>
      cases conflict with
      | none =>
        rw [registerAll_append hl] at h
        exact ⟨r₁, hl, h⟩
      | some c =>
        obtain ⟨before, spec, rest, rfl, hbefore, hheld⟩ := registerAll_eq_conflict_iff.mp hl
        have hconflict : r.registerAll (before ++ (c.name, spec) :: rest ++ m) = (r₁, some c) :=
          registerAll_eq_conflict_iff.mpr ⟨before, spec, rest ++ m, by simp, hbefore, hheld⟩
        cases h.symm.trans hconflict

private theorem exists_takes_iff : (∃ r', r.Takes l m r') ↔ r.Agrees (l ++ m) := by
  simp only [takes_iff, registerAll_eq_none_iff, exists_and_left, exists_eq', and_true]

/-- Two batches meet no conflict in the one order exactly if they meet none in the other order, and
then both catalogues that result give the same answers. -/
theorem registration_order (r : Registry) (l m : List (String × FunctionSpec)) :
    ((∃ r', r.Takes l m r') ↔ ∃ r', r.Takes m l r') ∧
      ∀ r' r'', r.Takes l m r' → r.Takes m l r'' →
        (∀ name, r'.get? name = r''.get? name) ∧ (∀ name, r'.contains name = r''.contains name) ∧
          r'.size = r''.size ∧ r'.names = r''.names ∧
          ∀ category, r'.namesIn category = r''.namesIn category := by
  constructor
  · rw [exists_takes_iff, exists_takes_iff]
    exact ⟨fun h => h.perm List.perm_append_comm, fun h => h.perm List.perm_append_comm⟩
  · intro r' r'' h h'
    rw [takes_iff] at h h'
    have hagrees : r.Agrees (l ++ m) := (registerAll_eq_none_iff.mp h).1
    have hget : ∀ name, r'.get? name = r''.get? name := by
      intro name
      rw [get?_of_registerAll h, get?_of_registerAll h', hagrees.known_eq List.perm_append_comm]
    exact ⟨hget, lists_congr hget⟩

/-- Two batches share two names. The names are entered in different orders, but listed in one. -/
theorem registration_order_shared :
    let one := FunctionSpec.exactly 1 .other
    let two := FunctionSpec.exactly 2 .other
    let l := [("f", one), ("g", two)]
    let m := [("g", two), ("h", one), ("f", one)]
    let r' := (empty.registerAll (l ++ m)).1
    let r'' := (empty.registerAll (m ++ l)).1
    empty.Takes l m r' ∧ empty.Takes m l r'' ∧ r'.specs.keys = ["f", "g", "h"] ∧
      r''.specs.keys = ["g", "h", "f"] ∧ r'.names = r''.names ∧
      r'.namesIn "other" = r''.namesIn "other" := by
  intro one two l m r' r''
  obtain ⟨-, hsame⟩ := registration_order empty l m
  have h : empty.Takes l m r' := takes_iff.mpr rfl
  have h' : empty.Takes m l r'' := takes_iff.mpr rfl
  obtain ⟨-, -, -, hnames, hcategories⟩ := hsame r' r'' h h'
  exact ⟨h, h', rfl, rfl, hnames, hcategories "other"⟩

end Registry

end FormulaEngine
