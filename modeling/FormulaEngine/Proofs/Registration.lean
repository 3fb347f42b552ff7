import FormulaEngine.Proofs.Catalogue
/-!
# Registrations

A catalogue is asked to register specifications one by one or in batches. It only grows: the first
specification that is registered under a name stays the one of the name. A registration is refused
exactly if the name has another specification, and then it changes nothing. So a batch comes to an
end at its first conflict, with everything before that registered and nothing after it.
-/
namespace FormulaEngine

namespace Registry

/-- What a catalogue is asked: to register one specification, or a batch of them that is given as
pairs or as a mapping. -/
inductive Request where
  | single (name : String) (spec : FunctionSpec)
  | pairs (batch : List (String × FunctionSpec))
  | mapping (batch : Table String FunctionSpec)

def Request.registrations : Request → List (String × FunctionSpec)
  | .single name spec => [(name, spec)]
  | .pairs batch => batch
  | .mapping batch => batch.entries

/-- Does what a request asks. Answers the catalogue that results, and the conflict if there is
one. -/
def perform (r : Registry) : Request → Registry × Option Conflict
  | .single name spec =>
    match r.register name spec with
    | .ok r' => (r', none)
    | .error c => (r, some c)
  | .pairs batch => r.registerAll batch
  | .mapping batch => r.registerAll batch.entries

/-- A catalogue after some requests, the oldest one first, whether or not they met conflicts. -/
def after (r : Registry) (qs : List Request) : Registry :=
  qs.foldl (fun r q => (r.perform q).1) r

/-- The registrations of a batch that are processed: no more than up to the first one that is
refused. -/
def processed (r : Registry) : List (String × FunctionSpec) → List (String × FunctionSpec)
  | [] => []
  | (name, spec) :: rest =>
    match r.register name spec with
    | .ok r' => (name, spec) :: processed r' rest
    | .error _ => [(name, spec)]

/-- All registrations that are processed in the course of some requests. -/
def history (r : Registry) : List Request → List (String × FunctionSpec)
  | [] => []
  | q :: qs => r.processed q.registrations ++ history (r.perform q).1 qs

/-- The specification of a name in a catalogue, or else in the first of some registrations of the
name. -/
def known (r : Registry) (l : List (String × FunctionSpec)) (name : String) :
    Option FunctionSpec :=
  (r.get? name).or (Table.find? name l)

variable {r r' : Registry} {l : List (String × FunctionSpec)} {name : String} {spec : FunctionSpec}

private theorem perform_eq (r : Registry) (q : Request) :
    r.perform q = r.registerAll q.registrations := by
  cases q with
  | single name spec =>
    rw [perform, Request.registrations, registerAll]
    cases r.register name spec <;> rfl
  | pairs batch => rfl
  | mapping batch => rfl

private theorem after_append (r : Registry) (qs qs' : List Request) :
    r.after (qs ++ qs') = (r.after qs).after qs' :=
  List.foldl_append

private theorem eq_of_register (h : r.register name spec = .ok r') {held : FunctionSpec}
    (hheld : r.get? name = some held) : held = spec := by
  by_contra hne
  cases h.symm.trans (register_eq_error_iff.mpr ⟨rfl, held, hheld, hne⟩)

theorem known_of_register (h : r.register name spec = .ok r')
    (l : List (String × FunctionSpec)) : r'.known l = r.known ((name, spec) :: l) := by
  funext x
  rw [known, known, get?_of_register h, Table.find?]
  by_cases hx : name = x
  · subst hx
    rw [if_pos rfl, if_pos rfl]
    cases hheld : r.get? name with
    | none => rfl
    | some held => rw [eq_of_register h hheld, Option.some_or, Option.some_or]
  · rw [if_neg hx, if_neg hx]

private theorem known_of_refused {c : Conflict} (h : r.register name spec = .error c) :
    r.known [(name, spec)] = r.get? := by
  obtain ⟨-, held, hheld, -⟩ := register_eq_error_iff.mp h
  funext x
  rw [known, Table.find?, Table.find?]
  by_cases hx : name = x
  · rw [← hx, hheld, Option.some_or]
  · rw [if_neg hx, Option.or_none]

private theorem known_append (r : Registry) (l m : List (String × FunctionSpec)) (x : String) :
    r.known (l ++ m) x = (r.known l x).or (Table.find? x m) := by
  rw [known, known, Table.find?_append, Option.or_assoc]

private theorem get?_registerAll (r : Registry) (l : List (String × FunctionSpec)) :
    (r.registerAll l).1.get? = r.known (r.processed l) := by
  induction l generalizing r with
  | nil =>
    funext x
    exact (Option.or_none).symm
  | cons p rest ih =>
    obtain ⟨name, spec⟩ := p
    rw [registerAll, processed]
    cases h : r.register name spec with
    | ok r' => rw [← known_of_register h, ← ih]
    | error c => exact (known_of_refused h).symm

/-- A name has the specification of its first registration that was processed, unless the catalogue
had one before. -/
private theorem get?_after (r : Registry) (qs : List Request) (x : String) :
    (r.after qs).get? x = r.known (r.history qs) x := by
  induction qs generalizing r with
  | nil => exact (Option.or_none).symm
  | cons q qs ih =>
    have hstep : (r.perform q).1.get? x = r.known (r.processed q.registrations) x := by
      rw [perform_eq, get?_registerAll]
    rw [history, known_append, ← hstep]
    exact ih _

private theorem registerAll_cons_eq_ok_iff : r.registerAll ((name, spec) :: l) = (r', none) ↔
    ∃ r₁, r.register name spec = .ok r₁ ∧ r₁.registerAll l = (r', none) := by
  rw [registerAll]
  cases r.register name spec <;> simp

theorem registerAll_append (h : r.registerAll l = (r', none)) (m : List (String × FunctionSpec)) :
    r.registerAll (l ++ m) = r'.registerAll m := by
  induction l generalizing r with
  | nil =>
    cases h
    rfl
  | cons p l ih =>
    obtain ⟨r₁, hregister, hrest⟩ := registerAll_cons_eq_ok_iff.mp h
    rw [List.cons_append, registerAll, hregister]
    exact ih hrest

private theorem processed_eq_self (h : r.registerAll l = (r', none)) : r.processed l = l := by
  induction l generalizing r with
  | nil => rfl
  | cons p l ih =>
    obtain ⟨r₁, hregister, hrest⟩ := registerAll_cons_eq_ok_iff.mp h
    rw [processed, hregister]
    exact congrArg _ (ih hrest)

theorem get?_of_registerAll (h : r.registerAll l = (r', none)) : r'.get? = r.known l := by
  rw [← processed_eq_self h, ← get?_registerAll, h]

/-- A batch meets a conflict exactly if it has a registration that is refused after all before it
were made. -/
theorem registerAll_eq_conflict_iff {c : Conflict} :
    r.registerAll l = (r', some c) ↔ ∃ before spec rest, l = before ++ (c.name, spec) :: rest ∧
      r.registerAll before = (r', none) ∧ ∃ held, r'.get? c.name = some held ∧ held ≠ spec := by
  constructor
  · intro h
    induction l generalizing r with
    | nil => cases h
    | cons p l ih =>
      obtain ⟨name, spec⟩ := p
      rw [registerAll] at h
      cases hregister : r.register name spec with
      | ok r₁ =>
        rw [hregister] at h
        obtain ⟨before, spec', rest, rfl, hbefore, hheld⟩ := ih h
        have hcons := registerAll_cons_eq_ok_iff.mpr ⟨r₁, hregister, hbefore⟩
        exact ⟨(name, spec) :: before, spec', rest, rfl, hcons, hheld⟩
      | error c' =>
        rw [hregister] at h
        cases h
        obtain ⟨rfl, hheld⟩ := register_eq_error_iff.mp hregister
        exact ⟨[], spec, l, rfl, rfl, hheld⟩
  · rintro ⟨before, spec, rest, rfl, hbefore, hheld⟩
    rw [registerAll_append hbefore, registerAll, register_eq_error_iff.mpr ⟨rfl, hheld⟩]

private theorem perform_single_eq_conflict_iff {c : Conflict} :
    r.perform (.single name spec) = (r', some c) ↔
      r' = r ∧ c = ⟨name⟩ ∧ ∃ held, r.get? name = some held ∧ held ≠ spec := by
  rw [← register_eq_error_iff, perform]
  cases r.register name spec with
  | ok r₁ => simp
  | error c' => simp [eq_comm]

def standardRequests : List Request :=
  [.pairs (Builtin.all.map fun f => (f.name, f.spec)),
    .pairs (MathFunction.all.map fun f => (f.name, f.spec))]

private theorem standard_eq_after : standard = empty.after standardRequests := by
  have h : empty.registerAll (Builtin.all.map fun f => (f.name, f.spec)) =
      ((empty.registerAll (Builtin.all.map fun f => (f.name, f.spec))).1, none) :=
    Prod.ext rfl (by decide +kernel)
  exact congrArg Prod.fst (registerAll_append h _)

/-- Registrations only add to a catalogue. After any requests a name has the specification of its
first registration that was processed, and keeps it from then on. A registration is refused exactly
if its name has another specification, and a batch that meets a conflict leaves what was registered
before the first one. All answers of the catalogue are about the same names. -/
theorem append_only (start : Registry) (qs : List Request) :
    let r := start.after qs
    (∀ name, r.get? name = (start.get? name).or (Table.find? name (start.history qs))) ∧
      (∀ qs' name spec, r.get? name = some spec →
        (start.after (qs ++ qs')).get? name = some spec) ∧
      (∀ name spec r' c, r.perform (.single name spec) = (r', some c) ↔
        r' = r ∧ c = ⟨name⟩ ∧ ∃ held, r.get? name = some held ∧ held ≠ spec) ∧
      (∀ q r' c, r.perform q = (r', some c) ↔
        ∃ before spec rest, q.registrations = before ++ (c.name, spec) :: rest ∧
          r.perform (.pairs before) = (r', none) ∧
          ∃ held, r'.get? c.name = some held ∧ held ≠ spec) ∧
      (∀ batch r', r.perform (.pairs batch) = (r', none) →
        ∀ name, r'.get? name = (r.get? name).or (Table.find? name batch)) ∧
      (r.names.Nodup ∧ r.names.length = r.size ∧ ∀ name,
        (name ∈ r.names ↔ (r.get? name).isSome) ∧ r.contains name = (r.get? name).isSome) ∧
      standard.after qs = empty.after (standardRequests ++ qs) := by
  intro r
  refine ⟨?_, ?_, ?_, ?_, ?_, ?_, ?_⟩
  · exact get?_after start qs
  · intro qs' name spec hspec
    rw [after_append, get?_after, known, hspec, Option.some_or]
  · intro name spec r' c
    exact perform_single_eq_conflict_iff
  · intro q r' c
    rw [perform_eq]
    exact registerAll_eq_conflict_iff
  · intro batch r' hbatch
    exact congrFun (get?_of_registerAll hbatch)
  · exact ⟨r.nodup_names, r.length_names, fun name => ⟨mem_names, rfl⟩⟩
  · rw [after_append, standard_eq_after]

/-- A batch meets a conflict with an earlier registration at its second name. The name in front of
it is registered, the one behind it is not, and the conflict changes nothing. -/
theorem append_only_conflict :
    let one := FunctionSpec.exactly 1 .other
    let two := FunctionSpec.exactly 2 .other
    let r := empty.after [.single "f" one]
    let batch := [("g", two), ("f", two), ("h", one)]
    let r' := empty.after ([.single "f" one] ++ [.pairs batch])
    r.perform (.pairs [("g", two)]) = (r', none) ∧ r.perform (.pairs batch) = (r', some ⟨"f"⟩) ∧
      r.get? "f" = some one ∧ r'.get? "f" = some one ∧ r'.get? "g" = some two ∧
      r'.get? "h" = none := by
  intro one two r batch r'
  obtain ⟨-, hkeeps, -, hconflict, -⟩ := append_only empty [.single "f" one]
  obtain ⟨hholds, -⟩ := append_only empty ([.single "f" one] ++ [.pairs batch])
  have hone : r.get? "f" = some one := rfl
  have htwo : one ≠ two := by decide
  have hbefore : r.perform (.pairs [("g", two)]) = (r', none) := rfl
  have hkept : r'.get? "f" = some one := hkeeps [.pairs batch] "f" one hone
  refine ⟨hbefore, (hconflict (.pairs batch) r' ⟨"f"⟩).mpr ?_, hone, hkept, hholds "g", hholds "h"⟩
  exact ⟨[("g", two)], two, [("h", one)], rfl, hbefore, one, hkept, htwo⟩

end Registry

end FormulaEngine
