import FlexPimpl.CppTypes
import FlexPimpl.Objects
import Mathlib.Data.List.Zip

namespace Overloading
open CppTypes Objects

variable {Name Constant : Type}

-- Member functions that are no templates, and calls of them. Arguments have the
-- types of the parameters up to const and volatile, so that no conversion is ranked.
structure Function (Name Constant : Type) where
  name : Name
  params : List (Argument Constant)
  isConst : Bool
  isStatic : Bool
deriving DecidableEq, Repr

structure Query (Name Constant : Type) where
  name : Name
  onConst : Bool
  arguments : List (Expression Constant)
deriving DecidableEq, Repr

-- A reference adds const and volatile to what it refers to, but takes none away.
def Fits (target type : Argument Constant) : Prop := type.qualify target.qualifiers = target

def Binds (param : Argument Constant) (argument : Expression Constant) : Prop :=
  match param with
  | .reference .lvalue target =>
    Fits target argument.type ∧ (argument.category = .lvalue ∨ target.qualifiers = (true,false))
  | .reference .rvalue target => Fits target argument.type ∧ argument.category = .xvalue
  | _ => argument.type.decayed = param.decayed

structure Viable (function : Function Name Constant) (query : Query Name Constant) : Prop where
  name : query.name = function.name
  binds : List.Forall₂ Binds function.params query.arguments
  object : query.onConst = true → function.isStatic = true ∨ function.isConst = true

-- Which of two parameters is better for an argument that both take: nothing
-- ranks a reference against a value.
def Prefers (first second : Argument Constant) : Prop :=
  match first,second with
  | .reference .rvalue _,.reference .lvalue _ => True
  | .reference .lvalue target,.reference .lvalue other | .reference .rvalue target,.reference .rvalue other =>
    target.qualifiers ≤ other.qualifiers ∧ target.qualifiers ≠ other.qualifiers
  | _,_ => False

def PrefersObject (first second : Function Name Constant) : Prop :=
  (first.isStatic = false ∧ second.isStatic = false) ∧ first.isConst = false ∧ second.isConst = true

structure Better (first second : Function Name Constant) : Prop where
  noWorse : ∀ pair ∈ first.params.zip second.params, ¬ Prefers pair.2 pair.1
  object : ¬ PrefersObject second first
  somewhere : (∃ pair ∈ first.params.zip second.params, Prefers pair.1 pair.2) ∨ PrefersObject first second

section Decisions
variable [DecidableEq Name] [DecidableEq Constant]

instance (param : Argument Constant) (argument : Expression Constant) : Decidable (Binds param argument) := by
  unfold Binds Fits
  split <;> infer_instance

instance (function : Function Name Constant) (query : Query Name Constant) : Decidable (Viable function query) :=
  decidable_of_iff (query.name = function.name ∧ List.Forall₂ Binds function.params query.arguments ∧
      (query.onConst = true → function.isStatic = true ∨ function.isConst = true))
    ⟨fun all => ⟨all.1,all.2.1,all.2.2⟩,fun all => ⟨all.name,all.binds,all.object⟩⟩

instance (first second : Argument Constant) : Decidable (Prefers first second) := by
  unfold Prefers
  split <;> infer_instance

instance (first second : Function Name Constant) : Decidable (PrefersObject first second) :=
  inferInstanceAs (Decidable (_ ∧ _))

instance (first second : Function Name Constant) : Decidable (Better first second) :=
  decidable_of_iff ((∀ pair ∈ first.params.zip second.params, ¬ Prefers pair.2 pair.1) ∧ ¬ PrefersObject second first ∧
      ((∃ pair ∈ first.params.zip second.params, Prefers pair.1 pair.2) ∨ PrefersObject first second))
    ⟨fun all => ⟨all.1,all.2.1,all.2.2⟩,fun all => ⟨all.noWorse,all.object,all.somewhere⟩⟩

def bestOf (functions : List (Function Name Constant)) (query : Query Name Constant) : Option Nat :=
  (functions.zipIdx.find? fun candidate => decide (Viable candidate.1 query ∧
    ∀ other ∈ functions.zipIdx, other.2 ≠ candidate.2 → Viable other.1 query → Better candidate.1 other.1)).map Prod.snd

def resolution : Resolution (Function Name Constant) (Query Name Constant) Unit := fun functions query n =>
  if query.arguments.length = n then (bestOf functions query).map fun i => (i,()) else none

end Decisions

-- How a function that has a parameter can call with it: as what it is declared,
-- and by its name alone.
def passed (param : Argument Constant) : Expression Constant :=
  ⟨match param with
    | .reference .rvalue _ => .xvalue
    | _ => .lvalue,param.adjusted.referred⟩

def named (param : Argument Constant) : Expression Constant := ⟨.lvalue,param.adjusted.referred⟩

def Function.site (function : Function Name Constant) : Query Name Constant :=
  ⟨function.name,function.isConst,function.params.map passed⟩

-- Parameters that no argument ranks, and functions that no call tells apart.
def Alike (first second : Argument Constant) : Prop :=
  if first.isReference = true ∧ second.isReference = true then first = second
  else first.referred.decayed = second.referred.decayed

structure Ties (first second : Function Name Constant) : Prop where
  name : first.name = second.name
  params : List.Forall₂ Alike first.params second.params
  object : first.isStatic = true ∨ second.isStatic = true ∨ first.isConst = second.isConst

instance [DecidableEq Constant] (first second : Argument Constant) : Decidable (Alike first second) :=
  inferInstanceAs (Decidable (ite _ _ _))

instance [DecidableEq Name] [DecidableEq Constant] (first second : Function Name Constant) :
    Decidable (Ties first second) :=
  decidable_of_iff (first.name = second.name ∧ List.Forall₂ Alike first.params second.params ∧
      (first.isStatic = true ∨ second.isStatic = true ∨ first.isConst = second.isConst))
    ⟨fun all => ⟨all.1,all.2.1,all.2.2⟩,fun all => ⟨all.name,all.params,all.object⟩⟩

section Own
variable {param first second : Argument Constant}

theorem reference_cases (type : Argument Constant) :
    type.isReference = false ∨ ∃ kind target, type = .reference kind target := by
  cases type with
  | reference kind target => exact Or.inr ⟨kind,target,rfl⟩
  | _ => exact Or.inl rfl

theorem fits_own (target : Argument Constant) : Fits target target := Argument.qualify_own target

theorem fits_same {target type : Argument Constant} (fits : Fits target type)
    (same : type.qualifiers = target.qualifiers) : type = target := by
  unfold Fits at fits
  rwa [← same,Argument.qualify_own] at fits

theorem fits_le {target type : Argument Constant} (fits : Fits target type) : type.qualifiers ≤ target.qualifiers := by
  cases takes : type.takesQualifiers with
  | true =>
    have grown := Argument.qualify_qualifiers target.qualifiers type takes
    rw [fits] at grown
    rw [grown]
    exact le_sup_left
  | false =>
    have none : type.qualifiers = ⊥ := Argument.qualifiers_none takes
    rw [none]
    exact bot_le

theorem binds_value {argument : Expression Constant} (plain : param.isReference = false) :
    Binds param argument ↔ argument.type.decayed = param.decayed := by
  cases param with
  | reference => cases plain
  | _ => rfl

theorem prefers_value (plain : first.isReference = false ∨ second.isReference = false) : ¬ Prefers first second := by
  unfold Prefers
  split <;> simp_all [Argument.isReference]

theorem alike_value (plain : first.isReference = false ∨ second.isReference = false) :
    Alike first second ↔ first.referred.decayed = second.referred.decayed := by
  unfold Alike
  rw [if_neg]
  intro both
  rcases plain with value | value
  · exact absurd (value.symm.trans both.1) Bool.false_ne_true
  · exact absurd (value.symm.trans both.2) Bool.false_ne_true

theorem passed_value (plain : param.isReference = false) : passed param = ⟨.lvalue,param.adjusted⟩ := by
  have kept : param.adjusted.referred = param.adjusted := Argument.referred_of_not (by rwa [Argument.adjusted_isReference])
  cases param with
  | reference => cases plain
  | _ => exact congrArg _ kept

theorem named_passed (other : param.isRvalueReference = false) : named param = passed param := by
  cases param with
  | reference kind target =>
    cases kind with
    | lvalue => rfl
    | rvalue => cases other
  | _ => rfl

theorem passed_binds (param : Argument Constant) : Binds param (passed param) := by
  rcases reference_cases param with plain | ⟨kind,target,rfl⟩
  · rw [binds_value plain,passed_value plain,Argument.decayed_adjusted]
  · cases kind with
    | lvalue => exact ⟨fits_own target,Or.inl rfl⟩
    | rvalue => exact ⟨fits_own target,rfl⟩

-- What has a name is an lvalue, so it is passed as what it is declared unless
-- that is an rvalue reference.
theorem named_binds (param : Argument Constant) :
    Binds param (named param) ↔ param.isRvalueReference = false := by
  constructor
  · intro binds
    apply Bool.eq_false_iff.mpr
    unfold Argument.isRvalueReference
    split
    · cases binds.2
    · exact Bool.false_ne_true
  · intro other
    have same : named param = passed param := named_passed other
    rw [same]
    exact passed_binds param

theorem fits_ranked {target other : Argument Constant} (fits : Fits other target) :
    ¬ (other.qualifiers ≤ target.qualifiers ∧ other.qualifiers ≠ target.qualifiers) ∧
      ((target.qualifiers ≤ other.qualifiers ∧ target.qualifiers ≠ other.qualifiers) ∨ target = other) := by
  have grown := fits_le fits
  constructor
  · intro fewer
    exact fewer.2 (le_antisymm fewer.1 grown)
  · by_cases same : target.qualifiers = other.qualifiers
    · exact Or.inr (fits_same fits same)
    · exact Or.inl ⟨grown,same⟩

-- Another parameter that takes what is passed for this one is never better, and
-- where this one is not better either nothing ranks the two.
theorem passed_ranked (binds : Binds second (passed first)) :
    ¬ Prefers second first ∧ (Prefers first second ∨ Alike first second) := by
  rcases reference_cases first with plain | ⟨kind,target,rfl⟩
  · refine ⟨prefers_value (Or.inr plain),Or.inr ((alike_value (Or.inl plain)).mpr ?_)⟩
    rw [passed_value plain] at binds
    rw [Argument.referred_of_not plain]
    rcases reference_cases second with value | ⟨other,type,rfl⟩
    · rw [binds_value value,Argument.decayed_adjusted] at binds
      rw [Argument.referred_of_not value]
      exact binds
    · have fits : Fits type first.adjusted := by
        cases other with
        | lvalue => exact binds.1
        | rvalue => exact binds.1
      exact (Argument.decayed_of_qualified fits).symm
  · rcases reference_cases second with value | ⟨other,type,rfl⟩
    · refine ⟨prefers_value (Or.inl value),Or.inr ((alike_value (Or.inr value)).mpr ?_)⟩
      rw [binds_value value] at binds
      rw [Argument.referred_of_not value]
      cases kind with
      | lvalue => exact binds
      | rvalue => exact binds
    · cases kind with
      | lvalue =>
        cases other with
        | lvalue =>
          have ranked := fits_ranked binds.1
          exact ⟨ranked.1,ranked.2.imp_right fun same => congrArg _ same⟩
        | rvalue => cases binds.2
      | rvalue =>
        cases other with
        | lvalue => exact ⟨id,Or.inl trivial⟩
        | rvalue =>
          have ranked := fits_ranked binds.1
          exact ⟨ranked.1,ranked.2.imp_right fun same => congrArg _ same⟩

end Own

theorem params_ranked {params others : List (Argument Constant)} (binds : List.Forall₂ Binds others (params.map passed)) :
    (∀ pair ∈ params.zip others, ¬ Prefers pair.2 pair.1) ∧
      ((∃ pair ∈ params.zip others, Prefers pair.1 pair.2) ∨ List.Forall₂ Alike params others) := by
  induction params generalizing others with
  | nil =>
    cases binds
    exact ⟨by simp,Or.inr .nil⟩
  | cons param params ih =>
    cases binds with
    | @cons other _ others _ head tail =>
      obtain ⟨worse,better⟩ := passed_ranked head
      obtain ⟨noWorse,somewhere⟩ := ih tail
      constructor
      · intro pair listed
        rcases List.mem_cons.mp listed with rfl | old
        · exact worse
        · exact noWorse pair old
      · rcases better with better | alike
        · exact Or.inl ⟨(param,other),List.mem_cons_self,better⟩
        · rcases somewhere with ⟨pair,old,better⟩ | all
          · exact Or.inl ⟨pair,List.mem_cons_of_mem _ old,better⟩
          · exact Or.inr (.cons alike all)

section Sites
variable {function other : Function Name Constant}

theorem site_viable (function : Function Name Constant) : Viable function function.site := by
  refine ⟨rfl,?_,fun isConst => Or.inr isConst⟩
  rw [Function.site,List.forall₂_map_right_iff]
  exact List.forall₂_same.mpr fun param _ => passed_binds param

-- Its own call prefers a function to every other that does not tie with it.
theorem site_better (viable : Viable other function.site) (apart : ¬ Ties function other) : Better function other := by
  obtain ⟨noWorse,somewhere⟩ := params_ranked viable.binds
  have object : ¬ PrefersObject other function := by
    intro prefers
    rcases viable.object prefers.2.2 with isStatic | isConst
    · exact Bool.false_ne_true (prefers.1.1.symm.trans isStatic)
    · exact Bool.false_ne_true (prefers.2.1.symm.trans isConst)
  refine ⟨noWorse,object,?_⟩
  rcases somewhere with better | alike
  · exact Or.inl better
  · have objects : ¬ (function.isStatic = true ∨ other.isStatic = true ∨ function.isConst = other.isConst) :=
      fun same => apart ⟨viable.name,alike,same⟩
    have reached := viable.object
    refine Or.inr ?_
    unfold PrefersObject
    simp only [Function.site] at reached
    grind

theorem better_asymm (better : Better function other) : ¬ Better other function := by
  intro back
  rcases better.somewhere with ⟨pair,listed,prefers⟩ | prefers
  · have swapped : pair.swap ∈ other.params.zip function.params := by
      rw [← List.zip_swap]
      exact List.mem_map_of_mem listed
    exact back.noWorse _ swapped prefers
  · exact back.object prefers

theorem alike_symm {first second : Argument Constant} (alike : Alike first second) : Alike second first := by
  unfold Alike at alike ⊢
  split at alike
  · rename_i both
    rw [if_pos both.symm]
    exact alike.symm
  · rename_i one
    rw [if_neg fun both => one both.symm]
    exact alike.symm

theorem ties_symm (ties : Ties function other) : Ties other function := by
  refine ⟨ties.name.symm,ties.params.flip.imp fun _ _ => alike_symm,?_⟩
  rcases ties.object with isStatic | isStatic | same
  · exact Or.inr (Or.inl isStatic)
  · exact Or.inl isStatic
  · exact Or.inr (Or.inr same.symm)

theorem apart_of_pairwise {functions : List (Function Name Constant)} {i j : Nat}
    (apart : functions.Pairwise fun first second => ¬ Ties first second) (first : functions[i]? = some function)
    (second : functions[j]? = some other) (different : i ≠ j) : ¬ Ties function other := by
  obtain ⟨boundedFirst,rfl⟩ := List.getElem?_eq_some_iff.mp first
  obtain ⟨boundedSecond,rfl⟩ := List.getElem?_eq_some_iff.mp second
  rw [List.pairwise_iff_getElem] at apart
  rcases Nat.lt_or_gt_of_ne different with before | after
  · exact apart i j boundedFirst boundedSecond before
  · intro ties
    exact apart j i boundedSecond boundedFirst after (ties_symm ties)

end Sites

section Resolutions
variable [DecidableEq Name] [DecidableEq Constant] {functions : List (Function Name Constant)}
  {query : Query Name Constant} {i n : Nat}

theorem bestOf_some (best : bestOf functions query = some i) :
    ∃ function, functions[i]? = some function ∧ Viable function query ∧
      ∀ other ∈ functions.zipIdx, other.2 ≠ i → Viable other.1 query → Better function other.1 := by
  obtain ⟨⟨function,place⟩,found,rfl⟩ := Option.map_eq_some_iff.mp best
  have listed := List.mem_zipIdx_iff_getElem?.mp (List.mem_of_find?_eq_some found)
  have chosen := List.find?_some found
  rw [decide_eq_true_iff] at chosen
  exact ⟨function,listed,chosen.1,chosen.2⟩

theorem bestOf_exact {function : Function Name Constant} (listed : functions[i]? = some function)
    (viable : Viable function query)
    (better : ∀ other ∈ functions.zipIdx, other.2 ≠ i → Viable other.1 query → Better function other.1) :
    bestOf functions query = some i := by
  have inside : (function,i) ∈ functions.zipIdx := List.mem_zipIdx_iff_getElem?.mpr listed
  cases best : bestOf functions query with
  | none =>
    have refused := List.find?_eq_none.mp (Option.map_eq_none_iff.mp best) (function,i) inside
    exact absurd (decide_eq_true ⟨viable,better⟩) refused
  | some j =>
    obtain ⟨other,atOther,otherViable,otherBetter⟩ := bestOf_some best
    by_cases same : j = i
    · rw [same]
    · have first := better (other,j) (List.mem_zipIdx_iff_getElem?.mpr atOther) same otherViable
      have second := otherBetter (function,i) inside (Ne.symm same) viable
      exact absurd second (better_asymm first)

variable {Member : Type} {type : Class (Function Name Constant) Member} {member : Member} {special : Unit}

theorem chosen_viable (chosen : type.chosen resolution query n = some (member,special)) :
    query.arguments.length = n ∧ Viable (type.signature member) query := by
  obtain ⟨⟨place,_⟩,resolved,found⟩ := Option.bind_eq_some_iff.mp chosen
  obtain ⟨_,listed,same⟩ := Option.map_eq_some_iff.mp found
  cases same
  unfold resolution at resolved
  split at resolved
  · rename_i counted
    obtain ⟨_,best,same⟩ := Option.map_eq_some_iff.mp resolved
    cases same
    obtain ⟨function,own,viable,_⟩ := bestOf_some best
    rw [List.getElem?_map,listed,Option.map_some] at own
    cases own
    exact ⟨counted,viable⟩
  · cases resolved

-- In a class without ties every member is chosen by its own call.
theorem site_chosen (apart : (type.members.map type.signature).Pairwise fun first second => ¬ Ties first second)
    (inside : member ∈ type.members) :
    type.chosen resolution (type.signature member).site (type.signature member).params.length = some (member,()) := by
  obtain ⟨i,atMember⟩ := List.getElem?_of_mem inside
  have listed : (type.members.map type.signature)[i]? = some (type.signature member) := by simp [atMember]
  have better : ∀ other ∈ (type.members.map type.signature).zipIdx, other.2 ≠ i →
      Viable other.1 (type.signature member).site → Better (type.signature member) other.1 := by
    intro other atOther different viable
    exact site_better viable (apart_of_pairwise apart listed (List.mem_zipIdx_iff_getElem?.mp atOther) (Ne.symm different))
  have best := bestOf_exact listed (site_viable (type.signature member)) better
  unfold Class.chosen resolution
  rw [if_pos (by simp [Function.site]),best]
  simp [atMember]

end Resolutions
end Overloading
