import FormulaEngine.Function.Registry
import Mathlib.Algebra.Ring.Nat
import Mathlib.Data.List.Sort
import Mathlib.Data.String.Basic
/-!
# What a catalogue lists

The lists of a catalogue say the same as its answers by name: each registered name is listed once,
in the order of code points, and once more with the names of its category. So the categories divide
the names among themselves, and two catalogues with the same answers have the same lists.
-/
namespace FormulaEngine

section Sorted

variable {l l' : List String}

private theorem pairwise_lt_mergeSort (h : l.Nodup) : (l.mergeSort (· ≤ ·)).Pairwise (· < ·) := by
  have hnodup : (l.mergeSort (· ≤ ·)).Nodup := (List.mergeSort_perm l _).nodup_iff.mpr h
  exact (List.pairwise_mergeSort' (· ≤ ·) l).imp₂ (fun _ _ hle hne => hle.lt_of_ne hne) hnodup

private theorem mergeSort_eq_of_mem_iff (h : l.Nodup) (h' : l'.Nodup) (hmem : ∀ x, x ∈ l ↔ x ∈ l') :
    l.mergeSort (· ≤ ·) = l'.mergeSort (· ≤ ·) := by
  have hperm : l.Perm l' := (List.perm_ext_iff_of_nodup h h').mpr hmem
  exact List.Perm.eq_of_pairwise (fun _ _ _ _ => le_antisymm)
    (List.pairwise_mergeSort' (· ≤ ·) l) (List.pairwise_mergeSort' (· ≤ ·) l')
    ((List.mergeSort_perm l _).trans (hperm.trans (List.mergeSort_perm l' _).symm))

end Sorted

namespace FunctionCategory

private theorem label_inj {a b : FunctionCategory} : a.label = b.label ↔ a = b :=
  ⟨label_injective, congrArg label⟩

private theorem sum_length_filter {α : Type} (f : α → FunctionCategory) (l : List α) :
    (all.map fun c => (l.filter (f · = c)).length).sum = l.length := by
  induction l with
  | nil => rfl
  | cons a l ih =>
    rw [List.length_cons, ← ih]
    cases h : f a <;> simp [all, h] <;> omega

end FunctionCategory

namespace Registry

variable {r r' : Registry} {name category : String}

theorem mem_names : name ∈ r.names ↔ (r.get? name).isSome := by
  rw [names, List.mem_mergeSort]
  exact Table.get?_isSome_iff.symm

theorem nodup_names (r : Registry) : r.names.Nodup :=
  (List.mergeSort_perm _ _).nodup_iff.mpr r.specs.nodup_keys

theorem length_names (r : Registry) : r.names.length = r.size := by
  rw [names, List.length_mergeSort]
  exact r.specs.length_keys

/-- The registered names of a category in order of registration. -/
def unsortedNamesIn (r : Registry) (category : String) : List String :=
  (r.specs.entries.filter (·.2.category.label = category)).map Prod.fst

private theorem nodup_unsortedNamesIn (r : Registry) (category : String) :
    (r.unsortedNamesIn category).Nodup :=
  r.specs.nodup_keys.sublist (List.filter_sublist.map _)

private theorem mem_unsortedNamesIn : name ∈ r.unsortedNamesIn category ↔
    ∃ spec, r.get? name = some spec ∧ spec.category.label = category := by
  simp only [unsortedNamesIn, List.mem_map, List.mem_filter, decide_eq_true_eq, get?,
    Table.get?_eq_some_iff]
  constructor
  · rintro ⟨⟨x, spec⟩, ⟨hmem, hcategory⟩, rfl⟩
    exact ⟨spec, hmem, hcategory⟩
  · rintro ⟨spec, hmem, hcategory⟩
    exact ⟨(name, spec), ⟨hmem, hcategory⟩, rfl⟩

private theorem mem_namesIn : name ∈ r.namesIn category ↔
    ∃ spec, r.get? name = some spec ∧ spec.category.label = category := by
  rw [namesIn, List.mem_mergeSort]
  exact mem_unsortedNamesIn

private theorem pairwise_namesIn (r : Registry) (category : String) :
    (r.namesIn category).Pairwise (· < ·) :=
  pairwise_lt_mergeSort (r.nodup_unsortedNamesIn category)

private theorem length_namesIn (r : Registry) (c : FunctionCategory) :
    (r.namesIn c.label).length = (r.specs.entries.filter (·.2.category = c)).length := by
  rw [namesIn, List.length_mergeSort, List.length_map]
  congr 2
  funext e
  exact decide_eq_decide.mpr FunctionCategory.label_inj

theorem lists_congr (h : ∀ name, r.get? name = r'.get? name) :
    (∀ name, r.contains name = r'.contains name) ∧ r.size = r'.size ∧ r.names = r'.names ∧
      ∀ category, r.namesIn category = r'.namesIn category := by
  have hnames : r.names = r'.names := by
    refine mergeSort_eq_of_mem_iff r.specs.nodup_keys r'.specs.nodup_keys fun name => ?_
    rw [← Table.get?_isSome_iff, ← Table.get?_isSome_iff]
    show (r.get? name).isSome ↔ (r'.get? name).isSome
    rw [h name]
  refine ⟨?_, ?_, hnames, ?_⟩
  · intro name
    exact congrArg Option.isSome (h name)
  · rw [← length_names, hnames, length_names]
  · intro category
    refine mergeSort_eq_of_mem_iff (r.nodup_unsortedNamesIn category)
      (r'.nodup_unsortedNamesIn category) fun name => ?_
    show name ∈ r.unsortedNamesIn category ↔ name ∈ r'.unsortedNamesIn category
    rw [mem_unsortedNamesIn, mem_unsortedNamesIn, h name]

private theorem mem_namesIn_label {c : FunctionCategory} :
    name ∈ r.namesIn c.label ↔ ∃ spec, r.get? name = some spec ∧ spec.category = c := by
  simp only [mem_namesIn, FunctionCategory.label_inj]

/-- The categories divide the names of a catalogue among themselves. Each of them lists its names in
the order of code points, and all of the lists are as long as the catalogue. -/
theorem namesIn_partition (r : Registry) :
    (∀ c : FunctionCategory, (r.namesIn c.label).Pairwise (· < ·) ∧
        ∀ name, name ∈ r.namesIn c.label ↔ ∃ spec, r.get? name = some spec ∧ spec.category = c) ∧
      (∀ c c' : FunctionCategory, c ≠ c' → (r.namesIn c.label).Disjoint (r.namesIn c'.label)) ∧
      (∀ name ∈ r.names, ∃! c : FunctionCategory, name ∈ r.namesIn c.label) ∧
      (FunctionCategory.all.map fun c => (r.namesIn c.label).length).sum = r.size ∧
      ∀ text, FunctionCategory.ofLabel? text = none → r.namesIn text = [] := by
  refine ⟨?_, ?_, ?_, ?_, ?_⟩
  · intro c
    exact ⟨r.pairwise_namesIn c.label, fun name => mem_namesIn_label⟩
  · intro c c' hne name hc hc'
    obtain ⟨spec, hspec, rfl⟩ := mem_namesIn_label.mp hc
    obtain ⟨spec', hspec', rfl⟩ := mem_namesIn_label.mp hc'
    rw [Option.some.inj (hspec.symm.trans hspec')] at hne
    exact hne rfl
  · intro name hname
    obtain ⟨spec, hspec⟩ := Option.isSome_iff_exists.mp (mem_names.mp hname)
    refine ⟨spec.category, mem_namesIn_label.mpr ⟨spec, hspec, rfl⟩, ?_⟩
    intro c hc
    obtain ⟨spec', hspec', rfl⟩ := mem_namesIn_label.mp hc
    rw [Option.some.inj (hspec'.symm.trans hspec)]
  · simp only [length_namesIn]
    exact FunctionCategory.sum_length_filter (fun e => e.2.category) r.specs.entries
  · intro text htext
    rw [List.eq_nil_iff_forall_not_mem]
    intro name hname
    obtain ⟨spec, -, hcategory⟩ := mem_namesIn.mp hname
    rw [← hcategory, FunctionCategory.ofLabel?_label] at htext
    cases htext

/-- The logarithms belong to one category of the standard catalogue, and none is called `log`. -/
theorem namesIn_partition_standard :
    "log" ∈ standard.names ∧ (∃! c : FunctionCategory, "log" ∈ standard.namesIn c.label) ∧
      FunctionCategory.ofLabel? "log" = none ∧ standard.namesIn "log" = [] := by
  obtain ⟨-, -, hone, -, hother⟩ := namesIn_partition standard
  have hlog : "log" ∈ standard.names := mem_names.mpr (by decide +kernel)
  have hlabel : FunctionCategory.ofLabel? "log" = none := by decide +kernel
  exact ⟨hlog, hone "log" hlog, hlabel, hother "log" hlabel⟩

end Registry

end FormulaEngine
