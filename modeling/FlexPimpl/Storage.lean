import FlexPimpl.History
import Mathlib.Algebra.Group.Nat.Defs

namespace ClassLayout

inductive Hierarchy where
  | empty
  | field (exponent : Nat) (rest : Hierarchy)
  | member (type rest : Hierarchy)
  | vtablePointer (exponent : Nat) (rest : Hierarchy)
  | base (parent rest : Hierarchy)
  | virtualBase (parent rest : Hierarchy)
deriving DecidableEq, Repr

-- The maximum over the components, with the virtual bases counted or not. A
-- member is a complete object whatever it is a member of.
def alignment : Hierarchy → Bool → Nat
  | .empty,_ => 1
  | .field exponent rest,virtuals => max (2 ^ exponent) (alignment rest virtuals)
  | .member type rest,virtuals => max (alignment type true) (alignment rest virtuals)
  | .vtablePointer exponent rest,virtuals => max (2 ^ exponent) (alignment rest virtuals)
  | .base parent rest,virtuals => max (alignment parent virtuals) (alignment rest virtuals)
  | .virtualBase parent rest,true => max (alignment parent true) (alignment rest true)
  | .virtualBase _ rest,false => alignment rest false

def completeAlignment (type : Hierarchy) : Nat := alignment type true
def nonVirtualAlignment (type : Hierarchy) : Nat := alignment type false

def allVirtualBases : Hierarchy → List Hierarchy
  | .empty => []
  | .field _ rest | .member _ rest | .vtablePointer _ rest => allVirtualBases rest
  | .base parent rest => allVirtualBases parent ++ allVirtualBases rest
  | .virtualBase parent rest => parent :: (allVirtualBases parent ++ allVirtualBases rest)

-- The complete object adds the virtual bases, each by its non-virtual part.
theorem completeAlignment_le (type : Hierarchy) (bound : Nat) :
    completeAlignment type ≤ bound ↔
      nonVirtualAlignment type ≤ bound ∧ ∀ parent ∈ allVirtualBases type, nonVirtualAlignment parent ≤ bound := by
  unfold completeAlignment nonVirtualAlignment
  induction type with
  | empty => simp [alignment,allVirtualBases]
  | field exponent rest ih | vtablePointer exponent rest ih | member type rest _ ih =>
    simp only [alignment,allVirtualBases,Nat.max_le,ih,and_assoc]
  | base parent rest ihParent ihRest =>
    simp only [alignment,allVirtualBases,Nat.max_le,ihParent,ihRest,List.forall_mem_append]
    constructor
    · intro fits
      rcases fits with ⟨⟨own,inherited⟩,others,remaining⟩
      exact ⟨⟨own,others⟩,inherited,remaining⟩
    · intro fits
      rcases fits with ⟨⟨own,others⟩,inherited,remaining⟩
      exact ⟨⟨own,inherited⟩,others,remaining⟩
  | virtualBase parent rest ihParent ihRest =>
    simp only [alignment,allVirtualBases,Nat.max_le,ihParent,ihRest,List.forall_mem_cons,List.forall_mem_append]
    constructor
    · intro fits
      rcases fits with ⟨⟨own,inherited⟩,others,remaining⟩
      exact ⟨others,own,inherited,remaining⟩
    · intro fits
      rcases fits with ⟨others,own,inherited,remaining⟩
      exact ⟨⟨own,inherited⟩,others,remaining⟩

theorem nonVirtualAlignment_le (type : Hierarchy) : nonVirtualAlignment type ≤ completeAlignment type :=
  ((completeAlignment_le type _).mp (Nat.le_refl _)).1

end ClassLayout

namespace FlexPimpl.Storage
open Settings CodeGenerator Tooling Steps History ClassLayout

variable {Record : Type} {host : Host Record} {dchecks : Bool} {s next : State Record}

-- The values an annotation gives for sizePadding; the last one is used.
def paddings (host : Host Record) (args : List Arg) : List (BitVec 32) :=
  args.filterMap fun arg => if arg.name_ = "sizePadding" then host.StringToInt arg.value_ else none

def sizePadding (host : Host Record) (args : List Arg) : BitVec 32 := (paddings host args).getLast?.getD 0

theorem parseStorageArgs_paddings {args : List Arg} {extra_size_bytes result : BitVec 32}
    (parsed : parseStorageArgs host dchecks args extra_size_bytes = .ok result) :
    result = (paddings host args).getLast?.getD extra_size_bytes := by
  induction args generalizing extra_size_bytes with
  | nil =>
    cases parsed
    rfl
  | cons arg rest ih =>
    unfold parseStorageArgs at parsed
    split at parsed
    · cases parsed
    · rename_i taken
      rw [ih parsed]
      unfold parseStorageArg at taken
      split at taken
      · rename_i blank
        cases taken
        simp [paddings,blank.1]
      · split at taken
        · rename_i named
          split at taken
          · cases taken
          · split at taken
            · rename_i value converted
              cases taken
              simp [paddings,named,converted,List.getLast?_cons]
            · cases taken
        · cases taken

theorem storageReply_text {settings : ReflectForPimplSettings Record} {args : List Arg} {info : ClassInfo Record}
    {emission : Emission} (replied : storageReply host dchecks settings args info = .ok emission) :
    emission.replacer = storageText settings.implParameterQualType (typeSize info (sizePadding host args)).toNat
      (fieldAlign info).toNat := by
  unfold storageReply at replied
  split at replied
  · cases replied
  · rename_i parsed
    split at replied
    · cases replied
    · split at replied
      · cases replied
      · cases replied
        rw [parseStorageArgs_paddings parsed]
        rfl

theorem storage_text {options : SourceTransformOptions Record} {settings : ReflectForPimplSettings Record}
    {record : Record} {info : ClassInfo Record} {emission : Emission}
    (injects : injectPimplStorage host dchecks options s = .completed emission next)
    (resolved : resolve host dchecks options.node = .ok (settings,record))
    (found : s.view settings.implParameterQualType = some info) :
    emission.replacer = storageText settings.implParameterQualType
      (typeSize info (sizePadding host options.args)).toNat (fieldAlign info).toNat := by
  obtain ⟨_,injected⟩ := inject_resolved injects resolved
  have entry := injected.found
  rw [found] at entry
  cases entry
  exact storageReply_text injected.replied

-- A padding that is not negative survives the conversion to uint64_t.
theorem typeSize_padded {info : ClassInfo Record} {extra_size_bytes : BitVec 32}
    (bounded : info.ASTRecordSize.toNat < 2 ^ 63) (padded : 0 ≤ extra_size_bytes.toInt) :
    ((typeSize info extra_size_bytes).toNat : Int) = info.ASTRecordSize.toNat + extra_size_bytes.toInt := by
  have positive : extra_size_bytes.msb = false := by
    cases sign : extra_size_bytes.msb with
    | false => rfl
    | true =>
      have negative := BitVec.toInt_neg_of_msb_true sign
      omega
  have value := BitVec.toInt_eq_toNat_of_msb positive
  have width := extra_size_bytes.isLt
  rw [typeSize,BitVec.signExtend_eq_setWidth_of_msb_false positive,BitVec.toNat_add,BitVec.toNat_setWidth,value]
  omega

-- The storage an annotation declares: it is the class and its padding, and
-- large enough, exactly when the padding asked for is not negative.
theorem printed_size_exact (host : Host Record) (dchecks : Bool) (options : SourceTransformOptions Record)
    {settings : ReflectForPimplSettings Record} {record : Record} {info : ClassInfo Record} {emission : Emission}
    (injects : injectPimplStorage host dchecks options s = .completed emission next)
    (resolved : resolve host dchecks options.node = .ok (settings,record))
    (found : s.view settings.implParameterQualType = some info)
    (bounded : info.ASTRecordSize.toNat < 2 ^ 63) :
    let padding := sizePadding host options.args
    let size := (typeSize info padding).toNat
    emission.replacer = storageText settings.implParameterQualType size (fieldAlign info).toNat ∧
      ((size : Int) = info.ASTRecordSize.toNat + padding.toInt ∧ info.ASTRecordSize.toNat ≤ size ↔
        0 ≤ padding.toInt) := by
  refine ⟨storage_text injects resolved found,?_⟩
  constructor
  · intro enough
    rcases enough with ⟨sum,enough⟩
    omega
  · intro padded
    have sum := typeSize_padded bounded padded
    exact ⟨sum,by omega⟩

def sized (size alignment : BitVec 64) : Host Unit :=
  plainHost fun _ => ⟨"FooImpl",some (),[{name := "foo",decl := some {annotations := []}}],size,alignment⟩

def fooOptions (args : List Arg) : SourceTransformOptions Unit := plainOptions [plainParameter "impl" "FooImpl" ()] args

def fooStored (host : Host Unit) : State Unit := (reflectForPimpl host false (fooOptions []) State.start).state

theorem printed_size_witness :
    let host := sized 32 8
    let info := cleaned (host.ReflectClass ())
    let padding := sizePadding host [⟨"sizePadding","8"⟩]
    let size := (typeSize info padding).toNat
    (size : Int) = info.ASTRecordSize.toNat + padding.toInt ∧ info.ASTRecordSize.toNat ≤ size :=
  (printed_size_exact (sized 32 8) false (fooOptions [⟨"sizePadding","8"⟩])
    (rfl : injectPimplStorage _ _ _ (fooStored (sized 32 8)) = .completed ⟨storageText "FooImpl" 40 8,[]⟩ _)
    rfl rfl (by decide)).2.mpr (by decide)

theorem negative_padding_shrinks :
    ∃ next, injectPimplStorage (sized 32 8) false (fooOptions [⟨"sizePadding","-8"⟩]) (fooStored (sized 32 8)) =
        .completed ⟨storageText "FooImpl" 24 8,[]⟩ next ∧
      (fooStored (sized 32 8)).view "FooImpl" = some (cleaned ((sized 32 8).ReflectClass ())) ∧
      ¬ ((sized 32 8).ReflectClass ()).ASTRecordSize.toNat ≤ 24 :=
  ⟨_,rfl,rfl,by decide⟩

-- The alignment printed for a reflected class, whatever runs before the storage
-- is declared. It falls short when a virtual base is more strictly aligned than
-- the rest, and when it does not fit an unsigned.
theorem printed_alignment_exact (host : Host Record) (dchecks : Bool) (type : Hierarchy)
    (reflection injection : SourceTransformOptions Record) {start stored found final : State Record}
    {settings other : ReflectForPimplSettings Record} {record same : Record}
    {trace : List (Invocation Record × Except Failure Emission)} {removed emission : Emission}
    (reflects : reflectForPimpl host dchecks reflection start = .completed removed stored)
    (reflected : resolve host dchecks reflection.node = .ok (settings,record))
    (reports : (host.ReflectClass record).ASTRecordNonVirtualAlignment.toNat = nonVirtualAlignment type)
    (path : Runs host dchecks stored trace found)
    (injects : injectPimplStorage host dchecks injection found = .completed emission final)
    (injected : resolve host dchecks injection.node = .ok (other,same))
    (sameKey : other.implParameterQualType = settings.implParameterQualType) :
    let info := host.ReflectClass record
    let printed := (fieldAlign info).toNat
    emission.replacer = storageText settings.implParameterQualType
        (typeSize info (sizePadding host injection.args)).toNat printed ∧
      (completeAlignment type ≤ printed ↔
        (∀ parent ∈ allVirtualBases type, nonVirtualAlignment parent ≤ nonVirtualAlignment type) ∧
          nonVirtualAlignment type < 2 ^ 32) := by
  have entry := reflected_found reflects reflected path
  rw [← sameKey] at entry
  have text := storage_text injects injected entry
  rw [sameKey] at text
  refine ⟨text,?_⟩
  have printed : (fieldAlign (host.ReflectClass record)).toNat = nonVirtualAlignment type % 2 ^ 32 := by
    rw [fieldAlign,BitVec.toNat_setWidth,reports]
  have least := nonVirtualAlignment_le type
  rw [printed]
  constructor
  · intro enough
    have fits : nonVirtualAlignment type % 2 ^ 32 = nonVirtualAlignment type :=
      Nat.le_antisymm (Nat.mod_le _ _) (Nat.le_trans least enough)
    rw [fits] at enough
    exact ⟨((completeAlignment_le type _).mp enough).2,by omega⟩
  · intro fits
    rcases fits with ⟨inherited,small⟩
    rw [Nat.mod_eq_of_lt small]
    exact (completeAlignment_le type _).mpr ⟨Nat.le_refl _,inherited⟩

def overVirtualBase (exponent : Nat) : Hierarchy := .vtablePointer 3 (.virtualBase (.field exponent .empty) .empty)

theorem printed_alignment_witness :
    completeAlignment (overVirtualBase 3) ≤ (fieldAlign ((sized 16 8).ReflectClass ())).toNat :=
  (printed_alignment_exact (sized 16 8) false (overVirtualBase 3) (fooOptions []) (fooOptions [])
    (rfl : reflectForPimpl _ _ _ State.start = .completed ⟨"",[]⟩ _) rfl rfl .nil
    (rfl : injectPimplStorage _ _ _ _ = .completed ⟨storageText "FooImpl" 16 8,[]⟩ _) rfl rfl).2.mpr
    ⟨by decide,by decide⟩

-- `struct alignas(64) Base` as a virtual base: 8 is printed for an object
-- aligned to 64.
theorem virtual_base_overaligned :
    nonVirtualAlignment (overVirtualBase 6) = 8 ∧ completeAlignment (overVirtualBase 6) = 64 ∧
      ∃ next, injectPimplStorage (sized 128 8) false (fooOptions []) (fooStored (sized 128 8)) =
        .completed ⟨storageText "FooImpl" 128 8,[]⟩ next ∧ ¬ completeAlignment (overVirtualBase 6) ≤ 8 :=
  ⟨rfl,rfl,_,rfl,by decide⟩

end FlexPimpl.Storage
