import FlexPimpl.CppTypes

namespace TemplateDeduction
open CppTypes

variable {Name Constant : Type}

-- Template parameters as patterns name them: one argument, or an element of a pack.
inductive Leaf (Name : Type) where
  | single (name : Name)
  | packed (name : Name)
deriving DecidableEq, Repr

-- The types of function parameters. A `passed` pattern declares a parameter of a
-- function type; an expansion ends a list and names the packs it expands; what
-- stands in a nested name, `decltype` or an expression as N + 1 is not deduced.
inductive Pattern (Name Constant : Type) where
  | parameter (own : Qualifiers) (leaf : Leaf Name)
  | constant (own : Qualifiers) (symbol : Constant)
  | apply (own : Qualifiers) (head operands : Pattern Name Constant)
  | pointer (own : Qualifiers) (target : Pattern Name Constant)
  | reference (kind : ReferenceKind) (target : Pattern Name Constant)
  | array (element bound : Pattern Name Constant)
  | function (result params : Pattern Name Constant)
  | passed (declared : Pattern Name Constant)
  | nil
  | cons (first rest : Pattern Name Constant)
  | expansion (pack : Name) (others : List Name) (pattern : Pattern Name Constant)
  | nondeduced (symbol : Constant) (operand : Pattern Name Constant)
deriving DecidableEq, Repr

structure Assignment (Name Constant : Type) where
  single : Name → Argument Constant
  pack : Name → List (Argument Constant)

-- What a deduction finds: an argument, an element of a pack, the size of a pack.
inductive Key (Name : Type) where
  | one (name : Name)
  | element (name : Name) (index : Nat)
  | size (name : Name)
deriving DecidableEq, Repr

inductive Content (Constant : Type) where
  | argument (found : Argument Constant)
  | count (size : Nat)
deriving DecidableEq, Repr

abbrev Binding (Name Constant : Type) := Key Name × Content Constant

def Leaf.key (index : Nat) : Leaf Name → Key Name
  | .single name => .one name
  | .packed name => .element name index

namespace Assignment
variable (a : Assignment Name Constant)

def element (name : Name) (index : Nat) : Argument Constant := (a.pack name).getD index .nil

def read (index : Nat) : Leaf Name → Argument Constant
  | .single name => a.single name
  | .packed name => a.element name index

def count (pack : Name) : Nat := (a.pack pack).length

def content : Key Name → Content Constant
  | .one name => .argument (a.single name)
  | .element name index => .argument (a.element name index)
  | .size name => .count (a.count name)

theorem content_leaf (index : Nat) (leaf : Leaf Name) : a.content (leaf.key index) = .argument (a.read index leaf) := by
  cases leaf <;> rfl

end Assignment

def Pattern.qualifiers : Pattern Name Constant → Qualifiers
  | .parameter own _ | .constant own _ | .apply own _ _ | .pointer own _ => own
  | .array element _ => qualifiers element
  | .reference .. | .function .. | .passed _ | .nil | .cons .. | .expansion .. | .nondeduced .. => ⊥

-- A reference to a template parameter that is neither const nor volatile, as T&&.
def Pattern.forwarding : Pattern Name Constant → Option (Leaf Name)
  | .reference .rvalue (.parameter own leaf) => if own = ⊥ then some leaf else none
  | _ => none

theorem forwarding_some {kind : ReferenceKind} {target : Pattern Name Constant} {leaf : Leaf Name}
    (forwards : Pattern.forwarding (.reference kind target) = some leaf) :
    kind = .rvalue ∧ target = .parameter ⊥ leaf := by
  unfold Pattern.forwarding at forwards
  split at forwards
  · rename_i own other same
    split at forwards
    · rename_i plain
      cases same
      cases forwards
      rw [plain]
      exact ⟨rfl,rfl⟩
    · cases forwards
  · cases forwards

section Deduction
variable (meaning : Constant → Argument Constant → Argument Constant)

def instantiate (a : Assignment Name Constant) : Pattern Name Constant → Nat → Argument Constant
  | .parameter own leaf,i => (a.read i leaf).qualify own
  | .constant own symbol,_ => .constant own symbol
  | .apply own head operands,i => .apply own (instantiate a head i) (instantiate a operands i)
  | .pointer own target,i => .pointer own (instantiate a target i)
  | .reference kind target,i => (instantiate a target i).collapse kind
  | .array element bound,i => .array (instantiate a element i) (instantiate a bound i)
  | .function result params,i => .function (instantiate a result i) (instantiate a params i)
  | .passed declared,i => (instantiate a declared i).decayed
  | .nil,_ => .nil
  | .cons first rest,i => .cons (instantiate a first i) (instantiate a rest i)
  | .expansion pack _ pattern,_ => .list ((List.range (a.count pack)).map (instantiate a pattern))
  | .nondeduced symbol operand,i => meaning symbol (instantiate a operand i)

end Deduction

def find (key : Key Name) (found : Argument Constant) : List (Binding Name Constant) := [(key,.argument found)]

def both (first second : Option (List (Binding Name Constant))) : Option (List (Binding Name Constant)) :=
  first.bind fun early => second.map fun late => early ++ late

def each (read : Nat → Argument Constant → Option (List (Binding Name Constant))) :
    Nat → List (Argument Constant) → Option (List (Binding Name Constant))
  | _,[] => some []
  | i,first :: rest => both (read i first) (each read (i + 1) rest)

def sizes (pack : Name) (others : List Name) (size : Nat) : List (Binding Name Constant) :=
  (pack :: others).map fun name => (.size name,.count size)

variable [DecidableEq Constant]

-- A pattern against a type. A parameter of a function type has neither
-- qualifiers nor array or function type left, and follows the rule for
-- forwarding references.
def deduce : Pattern Name Constant → Nat → Argument Constant → Option (List (Binding Name Constant))
  | .parameter own leaf,i,type => (type.without own).map (find (leaf.key i))
  | .constant own symbol,_,type => if type = .constant own symbol then some [] else none
  | .apply own head operands,i,type =>
    match type with
    | .apply other first second =>
      if own = other then both (deduce head i first) (deduce operands i second) else none
    | _ => none
  | .pointer own target,i,type =>
    match type with
    | .pointer other inner => if own = other then deduce target i inner else none
    | _ => none
  | .reference _ (.nondeduced _ _),_,_ => some []
  | .reference _ (.reference _ _),_,_ | .reference _ (.passed _),_,_ => none
  | .reference kind target,i,type =>
    match type with
    | .reference other inner => if kind = other then deduce target i inner else none
    | _ => none
  | .array element bound,i,type =>
    match type with
    | .array first second => both (deduce element i first) (deduce bound i second)
    | _ => none
  | .function result params,i,type =>
    match type with
    | .function first second => both (deduce result i first) (deduce params i second)
    | _ => none
  | .passed (.parameter _ leaf),i,type => some (find (leaf.key i) type)
  | .passed (.array element _),i,type =>
    match type with
    | .pointer _ inner => deduce element i inner
    | _ => none
  | .passed (.function result params),i,type =>
    match type with
    | .pointer _ inner => deduce (.function result params) i inner
    | _ => none
  | .passed declared,i,type =>
    match declared.forwarding,type with
    | some leaf,.reference .lvalue _ => some (find (leaf.key i) type)
    | _,_ => deduce declared i (type.qualify declared.qualifiers)
  | .nil,_,type => if type = .nil then some [] else none
  | .cons first rest,i,type =>
    match type with
    | .cons head tail => both (deduce first i head) (deduce rest i tail)
    | _ => none
  | .expansion pack others pattern,_,type => type.items.bind fun all =>
    (each (deduce pattern) 0 all).map (sizes pack others all.length ++ ·)
  | .nondeduced _ _,_,_ => some []

-- Where deduction reads a pattern's own instance back, and what it finds there.
def keys (a : Assignment Name Constant) : Pattern Name Constant → Nat → List (Key Name)
  | .parameter _ leaf,i => [leaf.key i]
  | .constant .. ,_ | .nil,_ | .nondeduced ..,_ => []
  | .apply _ first second,i | .function first second,i | .cons first second,i | .array first second,i =>
    keys a first i ++ keys a second i
  | .pointer _ target,i | .reference _ target,i => keys a target i
  | .passed (.array element _),i => keys a element i
  | .passed declared,i => keys a declared i
  | .expansion pack others pattern,_ =>
    (pack :: others).map Key.size ++ (List.range (a.count pack)).flatMap (keys a pattern)

-- Deduction finds what was put in: where a parameter is const or volatile, it
-- does not bring in the same, and so on.
def Kept (a : Assignment Name Constant) : Pattern Name Constant → Nat → Prop
  | .parameter own leaf,i => (a.read i leaf).Clear own
  | .constant ..,_ | .nil,_ | .nondeduced ..,_ => True
  | .apply _ first second,i | .function first second,i | .cons first second,i | .array first second,i =>
    Kept a first i ∧ Kept a second i
  | .pointer _ target,i => Kept a target i
  | .reference _ (.parameter own leaf),i => (a.read i leaf).isReference = false ∧ (a.read i leaf).Clear own
  | .reference _ (.reference _ _),_ | .reference _ (.passed _),_ => False
  | .reference _ target,i => Kept a target i
  | .passed (.parameter _ leaf),i => (a.read i leaf).decayed = a.read i leaf
  | .passed (.array element _),i => Kept a element i
  | .passed declared,i =>
    match declared.forwarding with
    | some leaf => ∀ inner, a.read i leaf ≠ .reference .rvalue inner
    | none => Kept a declared i
  | .expansion pack others pattern,_ =>
    (∀ name ∈ others, a.count name = a.count pack) ∧ ∀ i < a.count pack, Kept a pattern i

def Agrees (a : Assignment Name Constant) (bindings : List (Binding Name Constant)) : Prop :=
  ∀ binding ∈ bindings, binding.2 = a.content binding.1

def Returns (a : Assignment Name Constant) (result : Option (List (Binding Name Constant))) : Prop :=
  ∃ bindings, result = some bindings ∧ Agrees a bindings

section Returned
variable {a : Assignment Name Constant} {i : Nat}
omit [DecidableEq Constant]

@[simp] theorem agrees_append {first second : List (Binding Name Constant)} :
    Agrees a (first ++ second) ↔ Agrees a first ∧ Agrees a second := List.forall_mem_append

@[simp] theorem agrees_find {leaf : Leaf Name} {found : Argument Constant} :
    Agrees a (find (leaf.key i) found) ↔ found = a.read i leaf := by
  simp [Agrees,find,a.content_leaf]

theorem agrees_sizes {pack : Name} {others : List Name} {size : Nat} :
    Agrees a (sizes pack others size) ↔ ∀ name ∈ pack :: others, a.count name = size := by
  simp only [Agrees,sizes,List.forall_mem_map,Assignment.content,Content.count.injEq]
  exact forall₂_congr fun name member => eq_comm

@[simp] theorem returns_some {bindings : List (Binding Name Constant)} : Returns a (some bindings) ↔ Agrees a bindings := by
  simp [Returns]

@[simp] theorem returns_none : ¬ Returns a none := by
  simp [Returns]

@[simp] theorem returns_both {first second : Option (List (Binding Name Constant))} :
    Returns a (both first second) ↔ Returns a first ∧ Returns a second := by
  cases first <;> cases second <;> simp [both]

@[simp] theorem returns_prefix {first : List (Binding Name Constant)} {rest : Option (List (Binding Name Constant))} :
    Returns a (rest.map (first ++ ·)) ↔ Agrees a first ∧ Returns a rest := by
  cases rest <;> simp

theorem returns_each (read : Nat → Argument Constant → Option (List (Binding Name Constant)))
    (own : Nat → Argument Constant) (size first : Nat) :
    Returns a (each read first ((List.range' first size).map own)) ↔
      ∀ j, first ≤ j → j < first + size → Returns a (read j (own j)) := by
  induction size generalizing first with
  | zero =>
    simp only [List.range'_zero,List.map_nil,each,returns_some]
    constructor
    · intro _ j low high
      omega
    · intro _ binding member
      cases member
  | succ size ih =>
    simp only [List.range'_succ,List.map_cons,each,returns_both,ih]
    constructor
    · intro both j low high
      rcases Nat.eq_or_lt_of_le low with rfl | later
      · exact both.1
      · exact both.2 j later (by omega)
    · intro all
      exact ⟨all first (le_refl _) (by omega),fun j low high => all j (by omega) (by omega)⟩

end Returned

section Own
variable {meaning : Constant → Argument Constant → Argument Constant} {a : Assignment Name Constant}

-- The instances of patterns that name a type of their own are no references.
def Pattern.isCompound : Pattern Name Constant → Bool
  | .parameter .. | .reference .. | .passed _ | .nondeduced .. => false
  | _ => true

omit [DecidableEq Constant] in
theorem list_isReference (all : List (Argument Constant)) : (Argument.list all).isReference = false := by
  cases all <;> rfl

omit [DecidableEq Constant] in
theorem compound_isReference {pattern : Pattern Name Constant} (compound : pattern.isCompound = true) (i : Nat) :
    (instantiate meaning a pattern i).isReference = false := by
  cases pattern with
  | parameter | reference | passed | nondeduced => cases compound
  | expansion => exact list_isReference _
  | _ => rfl

omit [DecidableEq Constant] in
theorem returns_without {own : Qualifiers} {leaf : Leaf Name} {i : Nat} {type : Argument Constant} :
    Returns a ((type.without own).map (find (leaf.key i))) ↔ type.without own = some (a.read i leaf) := by
  cases type.without own <;> simp

theorem kept_leaf {own : Qualifiers} {leaf : Leaf Name} {i : Nat} :
    Returns a (deduce (.parameter own leaf) i (instantiate meaning a (.parameter own leaf) i)) ↔
      (a.read i leaf).Clear own := by
  rw [← Argument.without_qualify,instantiate,deduce,returns_without]

theorem kept_reference (own : Qualifiers) (leaf : Leaf Name) (i : Nat) (kind : ReferenceKind) :
    Returns a (deduce (.reference kind (.parameter own leaf)) i
        (instantiate meaning a (.reference kind (.parameter own leaf)) i)) ↔
      (a.read i leaf).isReference = false ∧ (a.read i leaf).Clear own := by
  rw [← Argument.without_qualify,instantiate,instantiate]
  cases value : (a.read i leaf).isReference with
  | true =>
    cases same : a.read i leaf with
    | reference other target =>
      have never := Argument.without_target own other target
      rw [← same] at never
      cases other <;> cases kind <;> simp [Argument.qualify,Argument.collapse,deduce,returns_without,never]
    | _ => rw [same] at value; cases value
  | false =>
    rw [Argument.collapse_of_not (by simpa using value)]
    simp [deduce,returns_without]

theorem kept_referent {target : Pattern Name Constant} (compound : target.isCompound = true) {i : Nat}
    (own : Returns a (deduce target i (instantiate meaning a target i)) ↔ Kept a target i) (kind : ReferenceKind) :
    Returns a (deduce (.reference kind target) i (instantiate meaning a (.reference kind target) i)) ↔
      Kept a (.reference kind target) i := by
  rw [instantiate,Argument.collapse_of_not (compound_isReference compound i)]
  cases target with
  | parameter | reference | passed | nondeduced => cases compound
  | _ => simpa [deduce,Kept] using own

def Pattern.settled : Pattern Name Constant → Bool
  | .parameter .. | .array .. => false
  | pattern => pattern.forwarding.isNone

theorem settled_deduce {declared : Pattern Name Constant} (settled : declared.settled = true) (i : Nat) :
    deduce (.passed declared) i (instantiate meaning a (.passed declared) i) =
      deduce declared i (instantiate meaning a declared i) := by
  cases declared with
  | parameter | array => cases settled
  | function result params => simp [instantiate,deduce,Argument.decayed]
  | reference kind target =>
    have plain : Pattern.forwarding (.reference kind target) = none := Option.isNone_iff_eq_none.mp settled
    simp only [instantiate,Argument.decayed_collapse]
    simp [deduce,plain,Pattern.qualifiers]
  | passed declared => simp [instantiate,deduce,Pattern.forwarding,Pattern.qualifiers]
  | expansion pack others pattern =>
    have listed (all : List (Argument Constant)) : (Argument.list all).decayed = .list all := by cases all <;> rfl
    simp [instantiate,deduce,listed,Pattern.forwarding,Pattern.qualifiers]
  | _ => simp [instantiate,deduce,Argument.decayed,Argument.qualify,Pattern.forwarding,Pattern.qualifiers]

omit [DecidableEq Constant] in
theorem settled_kept {declared : Pattern Name Constant} (settled : declared.settled = true) (i : Nat) :
    Kept a (.passed declared) i ↔ Kept a declared i := by
  cases declared with
  | parameter | array => cases settled
  | reference kind target =>
    have plain : Pattern.forwarding (.reference kind target) = none := Option.isNone_iff_eq_none.mp settled
    simp [Kept,plain]
  | _ => simp [Kept,Pattern.forwarding]

theorem kept_forwarding {leaf : Leaf Name} {i : Nat} :
    Returns a (deduce (.passed (.reference .rvalue (.parameter ⊥ leaf))) i
        (instantiate meaning a (.passed (.reference .rvalue (.parameter ⊥ leaf))) i)) ↔
      ∀ inner, a.read i leaf ≠ .reference .rvalue inner := by
  have forwards : Pattern.forwarding (.reference .rvalue (.parameter ⊥ leaf) : Pattern Name Constant) = some leaf := by
    simp [Pattern.forwarding]
  have own : Returns a (deduce _ i (instantiate meaning a _ i)) ↔ _ := kept_reference ⊥ leaf i .rvalue
  simp only [instantiate,Argument.decayed_collapse,Argument.qualify_none] at own ⊢
  cases value : a.read i leaf with
  | reference kind inner =>
    cases kind with
    | lvalue => simp [deduce,forwards,Argument.collapse,value]
    | rvalue =>
      rw [value] at own
      simp only [Argument.collapse] at own ⊢
      simpa [deduce.eq_def (.passed _),forwards,Pattern.qualifiers,Argument.isReference] using own
  | _ =>
    rw [value] at own
    simp only [Argument.collapse] at own ⊢
    simpa [deduce.eq_def (.passed _),forwards,Pattern.qualifiers,Argument.isReference] using own

-- By induction on the pattern, for it alone and as a parameter of a function type.
theorem deduce_kept (pattern : Pattern Name Constant) (i : Nat) :
    (Returns a (deduce pattern i (instantiate meaning a pattern i)) ↔ Kept a pattern i) ∧
      (Returns a (deduce (.passed pattern) i (instantiate meaning a (.passed pattern) i)) ↔
        Kept a (.passed pattern) i) := by
  -- Where `passed` changes nothing the second half is the first.
  have settles {declared : Pattern Name Constant} (settled : declared.settled = true) {i : Nat}
      (kept : Returns a (deduce declared i (instantiate meaning a declared i)) ↔ Kept a declared i) :
      (Returns a (deduce declared i (instantiate meaning a declared i)) ↔ Kept a declared i) ∧
        (Returns a (deduce (.passed declared) i (instantiate meaning a (.passed declared) i)) ↔
          Kept a (.passed declared) i) := by
    rw [settled_deduce settled,settled_kept settled]
    exact ⟨kept,kept⟩
  induction pattern generalizing i with
  | parameter own leaf =>
    refine ⟨kept_leaf,?_⟩
    simp [instantiate,deduce,Kept,Argument.decayed_qualify]
  | constant own symbol => exact settles rfl (by simp [instantiate,deduce,Kept,Agrees])
  | apply own head operands first second =>
    exact settles rfl (by simp [instantiate,deduce,Kept,(first i).1,(second i).1])
  | pointer own target ih => exact settles rfl (by simp [instantiate,deduce,Kept,(ih i).1])
  | reference kind target ih =>
    have kept : Returns a (deduce (.reference kind target) i (instantiate meaning a (.reference kind target) i)) ↔
        Kept a (.reference kind target) i := by
      cases target with
      | parameter own leaf => exact kept_reference own leaf i kind
      | reference | passed | nondeduced => simp [deduce,Kept,Agrees]
      | _ => exact kept_referent rfl (ih i).1 kind
    cases forwards : Pattern.forwarding (.reference kind target) with
    | none => exact settles (by simp [Pattern.settled,forwards]) kept
    | some leaf =>
      refine ⟨kept,?_⟩
      obtain ⟨rfl,rfl⟩ := forwarding_some forwards
      simpa [Kept,forwards] using kept_forwarding
  | array element bound first second =>
    constructor
    · simp [instantiate,deduce,Kept,(first i).1,(second i).1]
    · simp [instantiate,deduce,Kept,Argument.decayed,(first i).1]
  | function result params first second =>
    exact settles rfl (by simp [instantiate,deduce,Kept,(first i).1,(second i).1])
  | passed declared ih => exact settles rfl (ih i).2
  | nil => exact settles rfl (by simp [instantiate,deduce,Kept,Agrees])
  | cons head rest first second =>
    exact settles rfl (by simp [instantiate,deduce,Kept,(first i).1,(second i).1])
  | expansion pack others pattern ih =>
    refine settles rfl ?_
    have read := returns_each (a := a) (deduce pattern) (instantiate meaning a pattern) (a.count pack) 0
    rw [← List.range_eq_range'] at read
    simp only [instantiate,deduce,Argument.items_list,Option.bind_some,List.length_map,List.length_range, returns_prefix,
      read,agrees_sizes,Kept,(ih _).1]
    simp
  | nondeduced symbol operand ih => exact settles rfl (by simp [deduce,Kept,Agrees])

end Own

section Found
variable {meaning : Constant → Argument Constant → Argument Constant} {a : Assignment Name Constant}

-- A deduction that succeeds binds these keys, in this order.
def Keyed (found : List (Key Name)) (result : Option (List (Binding Name Constant))) : Prop :=
  ∀ bindings, result = some bindings → bindings.map Prod.fst = found

omit [DecidableEq Constant] in
theorem keyed_both {first second : List (Key Name)} {early late : Option (List (Binding Name Constant))}
    (before : Keyed first early) (after : Keyed second late) : Keyed (first ++ second) (both early late) := by
  intro bindings found
  obtain ⟨head,rfl,rest⟩ := Option.bind_eq_some_iff.mp found
  obtain ⟨tail,rfl,rfl⟩ := Option.map_eq_some_iff.mp rest
  rw [List.map_append,before head rfl,after tail rfl]

omit [DecidableEq Constant] in
theorem keyed_each {read : Nat → Argument Constant → Option (List (Binding Name Constant))}
    {found : Nat → List (Key Name)} (own : Nat → Argument Constant) (all : ∀ j, Keyed (found j) (read j (own j)))
    (size first : Nat) :
    Keyed ((List.range' first size).flatMap found) (each read first ((List.range' first size).map own)) := by
  induction size generalizing first with
  | zero =>
    intro bindings same
    cases same
    rfl
  | succ size ih => exact keyed_both (all first) (ih (first + 1))

omit [DecidableEq Constant] in
theorem keyed_if {found : List (Key Name)} {result : Option (List (Binding Name Constant))} {condition : Prop}
    [Decidable condition] (keyed : Keyed found result) : Keyed found (if condition then result else none) := by
  intro bindings same
  split at same
  · exact keyed bindings same
  · cases same

omit [DecidableEq Constant] in
theorem keyed_some {bindings : List (Binding Name Constant)} :
    Keyed (bindings.map Prod.fst) (some bindings) := by
  rintro _ ⟨⟩
  rfl

omit [DecidableEq Constant] in
theorem keyed_nothing : Keyed ([] : List (Key Name)) (some ([] : List (Binding Name Constant))) := keyed_some

omit [DecidableEq Constant] in
theorem keyed_none {found : List (Key Name)} : Keyed found (none : Option (List (Binding Name Constant))) := by
  intro bindings same
  cases same

theorem keyed_leaf {own : Qualifiers} {leaf : Leaf Name} {i : Nat} (type : Argument Constant) :
    Keyed [leaf.key i] (deduce (.parameter own leaf) i type) := by
  intro bindings found
  obtain ⟨_,_,rfl⟩ := Option.map_eq_some_iff.mp found
  rfl

theorem keyed_reference {own : Qualifiers} {leaf : Leaf Name} {kind : ReferenceKind} {i : Nat} (type : Argument Constant) :
    Keyed [leaf.key i] (deduce (.reference kind (.parameter own leaf)) i type) := by
  cases type with
  | reference other inner =>
    have keyed : Keyed [leaf.key i] (deduce (.parameter own leaf) i inner) := keyed_leaf inner
    simpa [deduce] using keyed_if keyed
  | _ =>
    intro bindings found
    simp [deduce] at found

theorem keyed_forwarding {leaf : Leaf Name} {i : Nat} (type : Argument Constant) :
    Keyed [leaf.key i] (deduce (.passed (.reference .rvalue (.parameter ⊥ leaf))) i type) := by
  have forwards : Pattern.forwarding (.reference .rvalue (.parameter ⊥ leaf) : Pattern Name Constant) = some leaf := by
    simp [Pattern.forwarding]
  simp only [deduce.eq_def (.passed _),forwards]
  split
  · rename_i same
    cases same
    exact keyed_some
  · exact keyed_reference _

theorem deduce_keys (pattern : Pattern Name Constant) (i : Nat) :
    Keyed (keys a pattern i) (deduce pattern i (instantiate meaning a pattern i)) ∧
      Keyed (keys a (.passed pattern) i) (deduce (.passed pattern) i (instantiate meaning a (.passed pattern) i)) := by
  have settles {declared : Pattern Name Constant} (settled : declared.settled = true) {i : Nat}
      (keyed : Keyed (keys a declared i) (deduce declared i (instantiate meaning a declared i))) :
      Keyed (keys a declared i) (deduce declared i (instantiate meaning a declared i)) ∧
        Keyed (keys a (.passed declared) i) (deduce (.passed declared) i (instantiate meaning a (.passed declared) i)) := by
    have same : keys a (.passed declared) i = keys a declared i := by cases declared <;> first | rfl | cases settled
    rw [settled_deduce settled,same]
    exact ⟨keyed,keyed⟩
  induction pattern generalizing i with
  | parameter own leaf =>
    refine ⟨keyed_leaf _,?_⟩
    rintro _ ⟨⟩
    rfl
  | constant own symbol => exact settles rfl (keyed_if keyed_some)
  | apply own head operands first second =>
    refine settles rfl ?_
    simpa [instantiate,deduce,keys] using keyed_both (first i).1 (second i).1
  | pointer own target ih =>
    refine settles rfl ?_
    simpa [instantiate,deduce,keys] using (ih i).1
  | reference kind target ih =>
    have keyed : Keyed (keys a (.reference kind target) i)
        (deduce (.reference kind target) i (instantiate meaning a (.reference kind target) i)) := by
      cases target with
      | parameter own leaf => exact keyed_reference _
      | nondeduced => simpa [deduce,keys] using keyed_nothing
      | reference | passed => simpa [deduce] using keyed_none
      | _ =>
        rw [instantiate,Argument.collapse_of_not (compound_isReference rfl i)]
        simpa [deduce,keys] using (ih i).1
    cases forwards : Pattern.forwarding (.reference kind target) with
    | none => exact settles (by simp [Pattern.settled,forwards]) keyed
    | some leaf =>
      refine ⟨keyed,?_⟩
      obtain ⟨rfl,rfl⟩ := forwarding_some forwards
      exact keyed_forwarding _
  | array element bound first second =>
    constructor
    · simpa [instantiate,deduce,keys] using keyed_both (first i).1 (second i).1
    · simpa [instantiate,deduce,keys,Argument.decayed] using (first i).1
  | function result params first second =>
    refine settles rfl ?_
    simpa [instantiate,deduce,keys] using keyed_both (first i).1 (second i).1
  | passed declared ih => exact settles rfl (ih i).2
  | nil => exact settles rfl (keyed_if keyed_some)
  | cons head rest first second =>
    refine settles rfl ?_
    simpa [instantiate,deduce,keys] using keyed_both (first i).1 (second i).1
  | expansion pack others pattern ih =>
    refine settles rfl ?_
    have read := keyed_each (instantiate meaning a pattern) (fun j => (ih j).1) (a.count pack) 0
    rw [← List.range_eq_range'] at read
    intro bindings found
    simp only [instantiate,deduce,Argument.items_list,Option.bind_some,List.length_map,List.length_range] at found
    obtain ⟨rest,same,rfl⟩ := Option.map_eq_some_iff.mp found
    rw [List.map_append,read rest same]
    simp [sizes,keys]
  | nondeduced symbol operand ih => exact settles rfl (by simpa [deduce,keys] using keyed_nothing)

end Found

end TemplateDeduction
