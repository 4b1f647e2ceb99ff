import Mathlib.Data.List.Basic
import Mathlib.Order.BooleanAlgebra.Basic

namespace CppTypes

abbrev Qualifiers := Bool × Bool

inductive ReferenceKind where
  | lvalue
  | rvalue
deriving DecidableEq, Repr

-- Types, and the values and templates that stand beside them as template
-- arguments. `apply` is a template with its arguments, which are a list.
inductive Argument (Constant : Type) where
  | constant (own : Qualifiers) (symbol : Constant)
  | apply (own : Qualifiers) (head operands : Argument Constant)
  | pointer (own : Qualifiers) (target : Argument Constant)
  | reference (kind : ReferenceKind) (target : Argument Constant)
  | array (element bound : Argument Constant)
  | function (result params : Argument Constant)
  | nil
  | cons (first rest : Argument Constant)
deriving DecidableEq, Repr

namespace Argument
variable {Constant : Type}

def list : List (Argument Constant) → Argument Constant
  | [] => .nil
  | first :: rest => .cons first (list rest)

def items : Argument Constant → Option (List (Argument Constant))
  | .nil => some []
  | .cons first rest => (items rest).map (first :: ·)
  | _ => none

@[simp] theorem items_list (all : List (Argument Constant)) : (list all).items = some all := by
  induction all with
  | nil => rfl
  | cons first rest ih => simp [list,items,ih]

def isReference : Argument Constant → Bool
  | .reference .. => true
  | _ => false

def isRvalueReference : Argument Constant → Bool
  | .reference .rvalue _ => true
  | _ => false

def isFunction : Argument Constant → Bool
  | .function .. => true
  | _ => false

-- An array is as const and volatile as its elements.
def qualifiers : Argument Constant → Qualifiers
  | .constant own _ | .apply own _ _ | .pointer own _ => own
  | .array element _ => qualifiers element
  | .reference .. | .function .. | .nil | .cons .. => ⊥

-- References and functions ignore qualifiers.
def qualify (added : Qualifiers) : Argument Constant → Argument Constant
  | .constant own symbol => .constant (own ⊔ added) symbol
  | .apply own head operands => .apply (own ⊔ added) head operands
  | .pointer own target => .pointer (own ⊔ added) target
  | .array element bound => .array (qualify added element) bound
  | .reference kind target => .reference kind target
  | .function result params => .function result params
  | .nil => .nil
  | .cons first rest => .cons first rest

def strip (removed : Qualifiers) : Argument Constant → Argument Constant
  | .constant own symbol => .constant (own \ removed) symbol
  | .apply own head operands => .apply (own \ removed) head operands
  | .pointer own target => .pointer (own \ removed) target
  | .array element bound => .array (strip removed element) bound
  | .reference kind target => .reference kind target
  | .function result params => .function result params
  | .nil => .nil
  | .cons first rest => .cons first rest

def takesQualifiers : Argument Constant → Bool
  | .constant .. | .apply .. | .pointer .. => true
  | .array element _ => takesQualifiers element
  | .reference .. | .function .. | .nil | .cons .. => false

-- The type that gives this one when the qualifiers are added.
def without (named : Qualifiers) (type : Argument Constant) : Option (Argument Constant) :=
  if type.isReference ∧ named ≠ ⊥ then none
  else if type.takesQualifiers ∧ type.qualifiers ⊔ named ≠ type.qualifiers then none
  else some (type.strip named)

def collapse (kind : ReferenceKind) : Argument Constant → Argument Constant
  | .reference .lvalue target => .reference .lvalue target
  | .reference .rvalue target => .reference kind target
  | other => .reference kind other

def referred : Argument Constant → Argument Constant
  | .reference _ target => target
  | other => other

def adjusted : Argument Constant → Argument Constant
  | .array element _ => .pointer ⊥ element
  | .function result params => .pointer ⊥ (.function result params)
  | other => other

-- The type of a parameter without its own qualifiers.
def decayed : Argument Constant → Argument Constant
  | .constant _ symbol => .constant ⊥ symbol
  | .apply _ head operands => .apply ⊥ head operands
  | .pointer _ target => .pointer ⊥ target
  | .array element _ => .pointer ⊥ element
  | .function result params => .pointer ⊥ (.function result params)
  | .reference kind target => .reference kind target
  | .nil => .nil
  | .cons first rest => .cons first rest

-- What deduction finds again behind qualifiers.
def Clear (named : Qualifiers) (type : Argument Constant) : Prop :=
  (type.isReference = true → named = ⊥) ∧ named ⊓ type.qualifiers = ⊥

-- What is a parameter's type as it is: no reference, array or function, and
-- neither const nor volatile.
def Plain (type : Argument Constant) : Prop := type.isReference = false ∧ type.decayed = type

instance (type : Argument Constant) [DecidableEq Constant] : Decidable type.Plain :=
  inferInstanceAs (Decidable (_ ∧ _))

section Qualified
variable (added : Qualifiers) (type : Argument Constant)

@[simp] theorem qualify_isReference : (type.qualify added).isReference = type.isReference := by cases type <;> rfl

@[simp] theorem qualify_takes : (type.qualify added).takesQualifiers = type.takesQualifiers := by
  induction type with
  | array element bound first second => exact first
  | _ => rfl

theorem qualify_qualifiers (takes : type.takesQualifiers = true) :
    (type.qualify added).qualifiers = type.qualifiers ⊔ added := by
  induction type with
  | constant | apply | pointer => rfl
  | array element bound first second => exact first takes
  | _ => cases takes

@[simp] theorem qualify_qualify : (type.qualify added).qualify added = type.qualify added := by
  induction type with
  | array element bound first second => simp [qualify,first]
  | _ => simp [qualify]

@[simp] theorem qualify_none : type.qualify ⊥ = type := by
  induction type with
  | array element bound first second => simp [qualify,first]
  | _ => simp [qualify]

@[simp] theorem qualify_own : type.qualify type.qualifiers = type := by
  induction type with
  | array element bound first second => simp [qualify,qualifiers,first]
  | _ => simp [qualify,qualifiers]

@[simp] theorem strip_qualify : (type.qualify added).strip added = type.strip added := by
  induction type with
  | array element bound first second => simp [qualify,strip,first]
  | _ => simp [qualify,strip,sup_sdiff_right_self]

theorem strip_eq : type.strip added = type ↔ added ⊓ type.qualifiers = ⊥ := by
  induction type with
  | array element bound first second => simp [strip,qualifiers,first]
  | _ => simp [strip,qualifiers,← disjoint_iff,disjoint_comm]

theorem decayed_qualify : (type.qualify added).decayed = type ↔ type.decayed = type := by
  cases type <;> simp [qualify,decayed]

@[simp] theorem decayed_decayed : type.decayed.decayed = type.decayed := by cases type <;> rfl
@[simp] theorem decayed_adjusted : type.adjusted.decayed = type.decayed := by cases type <;> rfl
@[simp] theorem adjusted_isReference : type.adjusted.isReference = type.isReference := by cases type <;> rfl

end Qualified

theorem without_qualify {named : Qualifiers} {type : Argument Constant} :
    (type.qualify named).without named = some type ↔ Clear named type := by
  have covered : ¬ ((type.qualify named).takesQualifiers = true ∧
      (type.qualify named).qualifiers ⊔ named ≠ (type.qualify named).qualifiers) := by
    intro differs
    rw [qualify_takes] at differs
    rw [qualify_qualifiers named type differs.1] at differs
    exact differs.2 (by rw [sup_assoc,sup_idem])
  unfold without Clear
  rw [if_neg covered,strip_qualify,qualify_isReference]
  constructor
  · intro found
    split at found
    · cases found
    · rename_i allowed
      refine ⟨fun isReference => ?_,(strip_eq named type).mp (Option.some.inj found)⟩
      by_contra named
      exact allowed ⟨isReference,named⟩
  · rintro ⟨allowed,apart⟩
    rw [if_neg fun bad => bad.2 (allowed bad.1),(strip_eq named type).mpr apart]

@[simp] theorem clear_none (type : Argument Constant) : Clear ⊥ type := ⟨fun _ => rfl,bot_inf_eq _⟩

theorem qualifiers_none {type : Argument Constant} (plain : type.takesQualifiers = false) : type.qualifiers = ⊥ := by
  induction type with
  | array element bound first second => exact first plain
  | constant | apply | pointer => cases plain
  | _ => rfl

theorem decayed_of_qualified {added : Qualifiers} {type other : Argument Constant}
    (same : type.adjusted.qualify added = other) : other.decayed = type.decayed := by
  rw [← same]
  cases type <;> rfl

theorem referred_of_not {type : Argument Constant} (plain : type.isReference = false) : type.referred = type := by
  cases type <;> first | rfl | cases plain

theorem collapse_of_not {type : Argument Constant} (plain : type.isReference = false) (kind : ReferenceKind) :
    type.collapse kind = .reference kind type := by
  cases type <;> first | rfl | cases plain

theorem decayed_collapse (kind : ReferenceKind) (type : Argument Constant) :
    (type.collapse kind).decayed = type.collapse kind := by
  cases type with
  | reference other target => cases other <;> rfl
  | _ => rfl

theorem strip_target (removed : Qualifiers) (kind : ReferenceKind) (target : Argument Constant) :
    target.strip removed ≠ .reference kind target := by
  intro same
  cases target with
  | reference other inner =>
    have sizes := congrArg sizeOf same
    simp [strip] at sizes
  | _ => cases same

theorem without_some {named : Qualifiers} {type inner : Argument Constant} (found : type.without named = some inner) :
    inner = type.strip named := by
  unfold without at found
  split at found
  · cases found
  · split at found
    · cases found
    · exact (Option.some.inj found).symm

theorem without_target (named : Qualifiers) (kind : ReferenceKind) (target : Argument Constant) :
    target.without named ≠ some (.reference kind target) := by
  intro found
  exact strip_target named kind target (without_some found).symm

theorem without_qualified_target (named : Qualifiers) (kind : ReferenceKind) (target : Argument Constant) :
    (target.qualify named).without named ≠ some (.reference kind target) := by
  intro found
  have same := without_some found
  rw [strip_qualify] at same
  exact strip_target named kind target same.symm

theorem decayed_target (kind : ReferenceKind) (target : Argument Constant) :
    target.decayed ≠ .reference kind target := by
  intro same
  cases target with
  | reference other inner =>
    have sizes := congrArg sizeOf same
    simp [decayed] at sizes
  | _ => cases same

end Argument

inductive Category where
  | lvalue
  | xvalue
deriving DecidableEq, Repr

-- What a call passes: the type of an expression is never a reference.
structure Expression (Constant : Type) where
  category : Category
  type : Argument Constant
deriving DecidableEq, Repr

end CppTypes
