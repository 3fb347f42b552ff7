import FormulaEngine.Context.Setting
import FormulaEngine.Operator
import FormulaEngine.Proofs.Digits
import FormulaEngine.Proofs.Infinity
/-!
# Traps

What can stop operators and the functions of the fixed libraries on given values: an integer beyond
the range of doubles where a number or a truth value is needed, an integer of too many digits where a
text is needed, and an infinite angle in the distance on the globe.
-/
namespace FormulaEngine

/-- Whether a result that is no value has a reason of a certain kind. -/
def Traps {ε α : Type} (P : ε → Prop) (x : Except ε α) : Prop :=
  ∀ t, x = .error t → P t

namespace Traps

variable {ε α β : Type} {P Q : ε → Prop} {x : Except ε α}

private theorem ok (a : α) : Traps P (.ok a) := by
  intro t h
  cases h

private theorem bind {f : α → Except ε β} (hx : Traps P x) (hf : ∀ a, x = .ok a → Traps P (f a)) :
    Traps P (x >>= f) := by
  intro t h
  cases x with
  | ok a => exact hf a rfl t h
  | error u =>
    cases h
    exact hx _ rfl

private theorem map {f : α → β} (hx : Traps P x) : Traps P (x.map f) := by
  intro t h
  cases x with
  | ok a => cases h
  | error u =>
    cases h
    exact hx _ rfl

private theorem mono (hx : Traps P x) (h : ∀ t, P t → Q t) : Traps Q x :=
  fun t ht => h t (hx t ht)

theorem ofTrap {P : Trap → Prop} {x : Except Trap α} (hx : Traps P x) :
    Traps (fun e => ∃ t, e = .trap t ∧ P t) (Fault.ofTrap x) := by
  intro e h
  cases x with
  | ok a => cases h
  | error t =>
    cases h
    exact ⟨t, rfl, hx t rfl⟩

end Traps

namespace Trap

/-- Whether a trap is due to an integer among some values: one that is beyond the range of doubles,
or one of too many digits, which may stand inside a list. -/
inductive FromInteger (vs : List Value) : Trap → Prop
  | range {n : Int} (h : .int n ∈ vs) (hn : Binary64.ofInt? n = none) : FromInteger vs .overflow
  | digits {v : Value} (h : v ∈ vs) (hv : v.IsLong) : FromInteger vs .tooManyDigits

/-- Whether a trap is due to the coordinates of two points: a latitude that is infinite, or a
difference of the latitudes or of the longitudes that is. Such a difference can be one of finite
coordinates. -/
def FromAngle (args : List Value) (t : Trap) : Prop :=
  t = .infiniteAngle ∧ ∃ lat₁ long₁ lat₂ long₂, numberArgument args 0 = .ok lat₁ ∧
    numberArgument args 1 = .ok long₁ ∧ numberArgument args 2 = .ok lat₂ ∧
    numberArgument args 3 = .ok long₂ ∧
    (lat₁.isInf = true ∨ lat₂.isInf = true ∨ (lat₂ - lat₁).isInf = true ∨
      (long₂ - long₁).isInf = true)

end Trap

section

variable {v w : Value} {vs args : List Value}

private theorem Value.traps_double {n : Int} (h : .int n ∈ vs) :
    Traps (·.FromInteger vs) (double n) := by
  intro t ht
  unfold double at ht
  split at ht
  next => cases ht
  next hn =>
    cases ht
    exact .range h hn

private theorem Value.traps_number (h : v ∈ vs) : Traps (·.FromInteger vs) v.number := by
  cases v with
  | int n => exact traps_double h
  | _ => exact .ok _

theorem Value.traps_truth (h : v ∈ vs) : Traps (·.FromInteger vs) v.truth := by
  cases v with
  | int n =>
    change Traps _ (if n = 0 then .ok false else (double n).map fun _ => true)
    split
    · exact .ok _
    · exact (traps_double h).map
  | _ => exact .ok _

private theorem Value.traps_isFiniteNumber (h : v ∈ vs) :
    Traps (·.FromInteger vs) v.isFiniteNumber := by
  cases v with
  | int n => exact (traps_double h).map
  | _ => exact .ok _

private theorem Value.traps_toText (h : v ∈ vs) : Traps (·.FromInteger vs) v.toText := by
  intro t ht
  obtain ⟨rfl, hlong⟩ := toText_eq_error_iff.mp ht
  exact .digits h hlong

private theorem Value.traps_join (hv : v ∈ vs) (hw : w ∈ vs) :
    Traps (·.FromInteger vs) (v.join w) :=
  (traps_toText hv).bind fun _ _ => (traps_toText hw).bind fun _ _ => .ok _

private theorem Value.traps_numbers (hv : v ∈ vs) (hw : w ∈ vs) :
    Traps (·.FromInteger vs) (v.numbers w) :=
  (traps_number hv).bind fun _ _ => (traps_number hw).bind fun _ _ => .ok _

private theorem traps_argument {α : Type} (x : Value → Except Trap α)
    (hnull : Traps (·.FromInteger args) (x .null))
    (h : ∀ v ∈ args, Traps (·.FromInteger args) (x v)) (i : Nat) :
    Traps (·.FromInteger args) (x (argument args i)) := by
  unfold argument
  rw [List.getD_eq_getElem?_getD]
  cases hi : args[i]? with
  | none => exact hnull
  | some v => exact h v (List.mem_of_getElem? hi)

private theorem traps_numberArgument (args : List Value) (i : Nat) :
    Traps (·.FromInteger args) (numberArgument args i) :=
  traps_argument Value.number (.ok _) (fun _ => Value.traps_number) i

end

namespace Builtin

private theorem traps_between (draw : Float) (args : List Value) :
    Traps (·.FromInteger args) (between draw args) := by
  have hlow := traps_numberArgument args 0
  have hhigh := traps_numberArgument args 1
  unfold numberArgument at hlow hhigh
  unfold between
  split
  · exact .ok _
  · exact hlow.bind fun x _ => .ok _
  · exact hlow.bind fun x _ => hhigh.bind fun y _ => .ok _

private theorem traps_monthOf {v : Value} {vs : List Value} (h : v ∈ vs) :
    Traps (·.FromInteger vs) (monthOf v) := by
  unfold monthOf
  dsimp only
  split
  · exact .ok _
  · exact .ok _
  · exact .ok _
  · apply (Value.traps_isFiniteNumber h).bind
    intro finite _
    cases finite with
    | true => exact (Value.traps_number h).bind fun x _ => .ok _
    | false => exact .ok _

private theorem traps_ofAngle (f : Float → Float) (x : Float) :
    Traps (fun t => t = .infiniteAngle ∧ x.isInf = true) (ofAngle f x) := by
  intro t h
  unfold ofAngle at h
  split at h
  next hx =>
    cases h
    exact ⟨rfl, hx⟩
  next => cases h

private theorem traps_distance (lat₁ long₁ lat₂ long₂ : Float) :
    Traps (fun t => t = .infiniteAngle ∧ (lat₁.isInf = true ∨ lat₂.isInf = true ∨
      (lat₂ - lat₁).isInf = true ∨ (long₂ - long₁).isInf = true))
      (distance lat₁ long₁ lat₂ long₂) := by
  have hradians (x : Float) (h : (radians x).isInf = true) : x.isInf = true := by
    cases hx : x.isInf with
    | true => rfl
    | false =>
      rw [Binary64.isInf_radians hx] at h
      cases h
  have hhalf (x : Float) (h : (radians x / 2.0).isInf = true) : x.isInf = true := by
    cases hx : x.isInf with
    | true => rfl
    | false =>
      rw [Binary64.isInf_half (Binary64.isInf_radians hx)] at h
      cases h
  unfold distance
  refine Traps.bind ?_ fun s _ => Traps.bind ?_ fun c₁ _ => Traps.bind ?_ fun c₂ _ =>
    Traps.bind ?_ fun u _ => .ok _
  · exact (traps_ofAngle _ _).mono fun t ⟨ht, h⟩ => ⟨ht, .inr (.inr (.inl (hhalf _ h)))⟩
  · exact (traps_ofAngle _ _).mono fun t ⟨ht, h⟩ => ⟨ht, .inl (hradians _ h)⟩
  · exact (traps_ofAngle _ _).mono fun t ⟨ht, h⟩ => ⟨ht, .inr (.inl (hradians _ h))⟩
  · exact (traps_ofAngle _ _).mono fun t ⟨ht, h⟩ => ⟨ht, .inr (.inr (.inr (hhalf _ h)))⟩

/-- Most built-in functions are trapped by an integer and by nothing else. -/
theorem traps_callable {f : Builtin} (hf : f ≠ .greatCircleDistance) (args : List Value)
    (d : Draws) :
    Traps (fun e => ∃ t, e = .trap t ∧ t.FromInteger args) (f.callable.call args d).1 := by
  cases f with
  | boolean =>
    exact ((traps_argument Value.truth (.ok _) (fun _ => Value.traps_truth) 0).bind
      fun b _ => .ok _).ofTrap
  | isFinite =>
    exact ((traps_argument Value.isFiniteNumber (.ok _)
      (fun _ => Value.traps_isFiniteNumber) 0).bind fun b _ => .ok _).ofTrap
  | random => exact (traps_between d.next args).ofTrap
  | round =>
    apply Traps.ofTrap
    apply (traps_numberArgument args 0).bind
    intro x _
    split
    · exact .ok _
    · exact .ok _
  | string =>
    exact ((traps_argument Value.toText (.ok _) (fun _ => Value.traps_toText) 0).bind
      fun s _ => .ok _).ofTrap
  | greatCircleDistance => exact absurd rfl hf
  | secondsToDate => exact Traps.ofTrap (.ok _)
  | month => exact (traps_argument monthOf (.ok _) (fun _ => traps_monthOf) 0).ofTrap
  | _ => exact ((traps_numberArgument args 0).bind fun x _ => .ok _).ofTrap

theorem traps_greatCircleDistance (args : List Value) (d : Draws) :
    Traps (fun e => ∃ t, e = .trap t ∧ (t.FromInteger args ∨ t.FromAngle args))
      (Builtin.greatCircleDistance.callable.call args d).1 := by
  have hnumber (i : Nat) := (traps_numberArgument args i).mono
    (Q := fun t => t.FromInteger args ∨ t.FromAngle args) fun t => .inl
  apply Traps.ofTrap
  refine (hnumber 0).bind fun lat₁ h₀ => (hnumber 1).bind fun long₁ h₁ =>
    (hnumber 2).bind fun lat₂ h₂ => (hnumber 3).bind fun long₂ h₃ =>
    ((traps_distance lat₁ long₁ lat₂ long₂).mono ?_).bind fun x _ => .ok _
  rintro t ⟨ht, h⟩
  exact .inr ⟨ht, lat₁, long₁, lat₂, long₂, h₀, h₁, h₂, h₃, h⟩

end Builtin

theorem MathFunction.traps_callable (f : MathFunction) (args : List Value) (d : Draws) :
    Traps (fun e => ∃ t, e = .trap t ∧ t.FromInteger args) (f.callable.call args d).1 := by
  have hunary (g : Float → Float) : Traps (·.FromInteger args) (unary g args) :=
    (traps_numberArgument args 0).bind fun x _ => .ok _
  have hbinary (g : Float → Float → Float) : Traps (·.FromInteger args) (binary g args) :=
    (traps_numberArgument args 0).bind fun x _ =>
      (traps_numberArgument args 1).bind fun y _ => .ok _
  cases f with
  | atan2 => exact (hbinary _).ofTrap
  | pow => exact (hbinary _).ofTrap
  | _ => exact (hunary _).ofTrap

section

variable {v w : Value} {vs : List Value}

theorem UnaryOperator.traps_onValue (op : UnaryOperator) (hv : v ∈ vs) :
    Traps (·.FromInteger vs) (op.onValue v) := by
  cases op with
  | minus => exact (Value.traps_number hv).map
  | plus => exact (Value.traps_number hv).map
  | not => exact (Value.traps_truth hv).map

private theorem Arithmetic.traps_onValues (op : Arithmetic) (hv : v ∈ vs) (hw : w ∈ vs) :
    Traps (·.FromInteger vs) (op.onValues v w) := by
  unfold onValues
  split
  · exact Value.traps_join hv hw
  · exact (Value.traps_numbers hv hw).map

private theorem Comparison.traps_onValues (op : Comparison) (hv : v ∈ vs) (hw : w ∈ vs) :
    Traps (·.FromInteger vs) (op.onValues v w) := by
  unfold onValues
  split
  · exact .ok _
  · exact (Value.traps_numbers hv hw).map

theorem BinaryOperator.traps_onValues (op : BinaryOperator) (hv : v ∈ vs) (hw : w ∈ vs) :
    Traps (·.FromInteger vs) (op.onValues v w) := by
  cases op with
  | arithmetic op => exact op.traps_onValues hv hw
  | concatenate => exact Value.traps_join hv hw
  | comparison op => exact op.traps_onValues hv hw
  | logical op => exact (Value.traps_truth hv).map

end

end FormulaEngine
