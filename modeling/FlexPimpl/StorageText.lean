import FlexPimpl.Declarations
import FlexPimpl.Storage

namespace FlexPimpl.StorageText
open Settings CodeGenerator Tooling Steps History Storage Brackets Declarations

variable {Record : Type}

structure StorageMember where
  type : String
  size : Nat
  alignment : Nat
  sizePolicy : String
  alignPolicy : String
  name : String
deriving DecidableEq, Repr

def line (lead : String) (piece : List Char) : Option (List Char) :=
  (piece.dropPrefix? lead.toList).bind fun rest => if rest.getLast? = some '\n' then some rest.dropLast else none

def readMember : List (List Char) → List Char → Option StorageMember
  | [type,size,alignment,sizePolicy,alignPolicy],declarator =>
    (line "\n" type).bind fun type => ((line " /*Size*/" size).bind readDigits).bind fun size =>
      ((line " /*Alignment*/" alignment).bind readDigits).bind fun alignment =>
        (line " " sizePolicy).bind fun sizePolicy => (line " " alignPolicy).bind fun alignPolicy =>
          (declarator.dropPrefix? [' ']).bind fun name => if name.getLast? = some ';' then
            some ⟨String.ofList type,size,alignment,String.ofList sizePolicy,String.ofList alignPolicy,
              String.ofList name.dropLast⟩
          else none
  | _,_ => none

def readStorage (text : String) : Option StorageMember :=
  (text.toList.dropPrefix? "::basis::FastPimpl<".toList).bind fun arguments =>
    (group role .angle [] arguments).bind fun read =>
      (cut role isComma [] read.1).bind fun pieces => readMember pieces read.2

theorem line_read (lead : String) (text : List Char) :
    line lead (lead.toList ++ (text ++ "\n".toList)) = some text := by
  have newline : "\n".toList = ['\n'] := rfl
  unfold line
  rw [List.dropPrefix?_append_of_beq _ (beq_self_eq_true lead.toList),newline]
  simp

theorem digits_read (n : Nat) : readDigits (toString n).toList = some n := by
  have text : (toString n).toList = Nat.toDigits 10 n := by rw [Nat.toString_eq_repr,Nat.toList_repr]
  have digits : (Nat.toDigits 10 n).all Char.isDigit = true := by
    rw [List.all_eq_true]
    intro c member
    exact Nat.isDigit_of_mem_toDigits (by decide) (by decide) member
  have value := Nat.ofDigitChars_ten_toDigits (n := n)
  rw [Nat.ofDigitChars_eq_foldl] at value
  unfold readDigits
  rw [text,if_pos ⟨Nat.toDigits_ne_nil,digits⟩,value]

theorem digit_plain {c : Char} (digit : c.isDigit = true) : role c = .plain ∧ isComma c = false := by
  constructor
  · unfold role
    split <;> first | rfl | (revert digit; decide)
  · apply Bool.eq_false_iff.mpr
    intro comma
    rw [isComma,beq_iff_eq] at comma
    rw [comma] at digit
    exact absurd digit (by decide)

theorem number_sealed (n : Nat) : Sealed role isComma (toString n).toList := by
  apply sealed_plain
  intro c member
  rw [Nat.toString_eq_repr,Nat.toList_repr] at member
  exact digit_plain (Nat.isDigit_of_mem_toDigits (by decide) (by decide) member)

def arguments (implParameterQualType : String) (size alignment : Nat) : List String :=
  ["\n" ++ implParameterQualType ++ "\n"," /*Size*/" ++ toString size ++ "\n",
    " /*Alignment*/" ++ toString alignment ++ "\n"," ::basis::pimpl::SizePolicy::AtLeast" ++ "\n",
    " ::basis::pimpl::AlignPolicy::AtLeast" ++ "\n"]

theorem storageText_arguments (implParameterQualType : String) (size alignment : Nat) :
    storageText implParameterQualType size alignment =
      "::basis::FastPimpl<" ++ ",".intercalate (arguments implParameterQualType size alignment) ++ "> impl_;" := by
  have sizeLabel : ", /*Size*/" = "," ++ " /*Size*/" := rfl
  have alignmentLabel : ", /*Alignment*/" = "," ++ " /*Alignment*/" := rfl
  have sizePolicy : ", ::basis::pimpl::SizePolicy::AtLeast" = "," ++ " ::basis::pimpl::SizePolicy::AtLeast" := rfl
  have alignPolicy : ", ::basis::pimpl::AlignPolicy::AtLeast" = "," ++ " ::basis::pimpl::AlignPolicy::AtLeast" := rfl
  unfold storageText arguments
  simp only [String.intercalate_cons_cons,String.intercalate_singleton,sizeLabel,alignmentLabel,sizePolicy,alignPolicy,
    String.append_assoc]

theorem arguments_sealed {implParameterQualType : String} (fragment : IsFragment implParameterQualType)
    (size alignment : Nat) : ∀ text ∈ (arguments implParameterQualType size alignment).map String.toList,
      Sealed role isComma text := by
  have newline : Sealed role isComma "\n".toList := by decide
  have sizeLabel : Sealed role isComma " /*Size*/".toList := rfl
  have alignmentLabel : Sealed role isComma " /*Alignment*/".toList := rfl
  intro text member
  simp only [arguments,List.map_cons,List.map_nil,List.mem_cons,List.not_mem_nil,or_false,String.toList_append] at member
  rcases member with rfl | rfl | rfl | rfl | rfl
  · exact sealed_append (sealed_append newline (fragment_comma fragment)) newline
  · exact sealed_append (sealed_append sizeLabel (number_sealed size)) newline
  · exact sealed_append (sealed_append alignmentLabel (number_sealed alignment)) newline
  · decide
  · decide

theorem readStorage_text {implParameterQualType : String} (fragment : IsFragment implParameterQualType)
    (size alignment : Nat) : readStorage (storageText implParameterQualType size alignment) =
      some ⟨implParameterQualType,size,alignment,"::basis::pimpl::SizePolicy::AtLeast",
        "::basis::pimpl::AlignPolicy::AtLeast","impl_"⟩ := by
  have pieces := arguments_sealed fragment size alignment
  have comma : Sealed role (fun _ => false) [','] := by decide
  have whole : Sealed role (fun _ => false)
      ([','].intercalate ((arguments implParameterQualType size alignment).map String.toList)) :=
    sealed_intercalate comma fun text member => sealed_weaken (by simp) (pieces text member)
  have empty : Sealed role isComma [] := sealed_nil
  have cuts : cut role isComma [] ([','].intercalate ((arguments implParameterQualType size alignment).map String.toList)) =
      some ((arguments implParameterQualType size alignment).map String.toList) := by
    simpa [arguments] using cut_intercalate rfl empty pieces
  have split : (storageText implParameterQualType size alignment).toList = "::basis::FastPimpl<".toList ++
      ([','].intercalate ((arguments implParameterQualType size alignment).map String.toList) ++
        '>' :: " impl_;".toList) := by
    rw [storageText_arguments,String.toList_append,String.toList_append,String.toList_intercalate,List.append_assoc]
    rfl
  unfold readStorage
  rw [split,List.dropPrefix?_append_of_beq _ (beq_self_eq_true "::basis::FastPimpl<".toList),
    Option.bind_some,group_sealed whole rfl,Option.bind_some,cuts,Option.bind_some]
  have sizePolicy : line " " (" ::basis::pimpl::SizePolicy::AtLeast".toList ++ "\n".toList) =
      some "::basis::pimpl::SizePolicy::AtLeast".toList := line_read " " "::basis::pimpl::SizePolicy::AtLeast".toList
  have alignPolicy : line " " (" ::basis::pimpl::AlignPolicy::AtLeast".toList ++ "\n".toList) =
      some "::basis::pimpl::AlignPolicy::AtLeast".toList := line_read " " "::basis::pimpl::AlignPolicy::AtLeast".toList
  simp only [readMember,arguments,List.map_cons,List.map_nil,String.toList_append,List.append_assoc,line_read,
    Option.bind_some,digits_read,sizePolicy,alignPolicy,String.ofList_toList]
  rfl

-- The size printed is the sum of two numbers, one of them signed, as far as it
-- fits 64 bits.
theorem typeSize_modular (info : ClassInfo Record) (extra_size_bytes : BitVec 32) :
    ((typeSize info extra_size_bytes).toNat : Int) =
      (info.ASTRecordSize.toNat + extra_size_bytes.toInt) % 18446744073709551616 := by
  have extended : (extra_size_bytes.signExtend 64).toInt = extra_size_bytes.toInt :=
    BitVec.toInt_signExtend_of_le (by decide)
  have same : ((extra_size_bytes.signExtend 64).toNat : Int) % 18446744073709551616 =
      extra_size_bytes.toInt % 18446744073709551616 := by
    rw [← extended,BitVec.toInt_eq_toNat_bmod]
    exact (Int.bmod_emod).symm
  rw [typeSize,BitVec.toNat_add]
  omega

-- Whatever runs between the reflection and the injection, the text declares
-- `impl_` as storage for the class, with numbers that read back as the size of
-- the class and its padding in 64 bits, and its alignment in 32.
theorem storage_decoded {host : Host Record} {dchecks : Bool} {reflection injection : SourceTransformOptions Record}
    {start stored found final : State Record} {settings other : ReflectForPimplSettings Record} {record same : Record}
    {trace : List (Invocation Record × Except Failure Emission)} {removed emission : Emission}
    (reflects : reflectForPimpl host dchecks reflection start = .completed removed stored)
    (reflected : resolve host dchecks reflection.node = .ok (settings,record))
    (path : Runs host dchecks stored trace found)
    (injects : injectPimplStorage host dchecks injection found = .completed emission final)
    (injected : resolve host dchecks injection.node = .ok (other,same))
    (sameKey : other.implParameterQualType = settings.implParameterQualType)
    (fragment : IsFragment settings.implParameterQualType) :
    ∃ size alignment, readStorage emission.replacer = some ⟨settings.implParameterQualType,size,alignment,
        "::basis::pimpl::SizePolicy::AtLeast","::basis::pimpl::AlignPolicy::AtLeast","impl_"⟩ ∧
      (size : Int) = ((host.ReflectClass record).ASTRecordSize.toNat + (sizePadding host injection.args).toInt) %
        18446744073709551616 ∧
      alignment = (host.ReflectClass record).ASTRecordNonVirtualAlignment.toNat % 4294967296 := by
  have entry := reflected_found reflects reflected path
  rw [← sameKey] at entry
  have text := storage_text injects injected entry
  rw [sameKey] at text
  refine ⟨_,_,by rw [text]; exact readStorage_text fragment _ _,typeSize_modular _ _,?_⟩
  rw [fieldAlign,BitVec.toNat_setWidth]
  rfl

theorem storage_decoded_witness :
    let info := (sized 32 8).ReflectClass ()
    ∃ size alignment, readStorage (storageText "FooImpl" 24 8) = some ⟨"FooImpl",size,alignment,
        "::basis::pimpl::SizePolicy::AtLeast","::basis::pimpl::AlignPolicy::AtLeast","impl_"⟩ ∧
      (size : Int) = (info.ASTRecordSize.toNat + (sizePadding (sized 32 8) [⟨"sizePadding","-8"⟩]).toInt) %
        18446744073709551616 ∧
      alignment = info.ASTRecordNonVirtualAlignment.toNat % 4294967296 := by
  have decoded := storage_decoded
    (rfl : reflectForPimpl (sized 32 8) false (fooOptions []) State.start = .completed ⟨"",[]⟩ _) rfl
    (runs_completed .nil (rfl : invoke _ _ ⟨.inject_pimpl_method_calls,fooOptions []⟩ _ = .completed _ _))
    (rfl : injectPimplStorage _ _ (fooOptions [⟨"sizePadding","-8"⟩]) _ = .completed ⟨storageText "FooImpl" 24 8,[]⟩ _)
    rfl rfl (by decide)
  exact decoded

end FlexPimpl.StorageText
