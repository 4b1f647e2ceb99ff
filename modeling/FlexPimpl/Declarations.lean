import FlexPimpl.Brackets
import FlexPimpl.Wrappers

namespace FlexPimpl.Declarations
open CodeGenerator Wrappers Brackets

variable {Record : Type} {host : Host Record} {dchecks : Bool} {record : Record} {method : MethodInfo}

inductive Bracket where
  | round | angle | square | curly
deriving DecidableEq, Repr

def role : Char → Role Bracket
  | '(' => .opens .round
  | ')' => .closes .round
  | '<' => .opens .angle
  | '>' => .closes .angle
  | '[' => .opens .square
  | ']' => .closes .square
  | '\x7b' => .opens .curly
  | '\x7d' => .closes .curly
  | _ => .plain

def isComma (c : Char) : Bool := c == ','
def isSemicolon (c : Char) : Bool := c == ';'

-- Balanced, with every comma and semicolon inside brackets.
def IsFragment (text : String) : Prop := Sealed role (fun c => isComma c || isSemicolon c) text.toList

instance (text : String) : Decidable (IsFragment text) := inferInstanceAs (Decidable (Sealed _ _ _))

structure Fragments (host : Host Record) (method : MethodInfo) : Prop where
  tplParams : ∀ param ∈ method.tplParams, param.tplDeclName ≠ "" ∧ IsFragment param.tplDeclName
  methodForwarding : methodForwarding host method ≠ "" ∧ IsFragment (methodForwarding host method)
  name : method.name ≠ "" ∧ IsFragment method.name
  params : ∀ param ∈ method.params, param.fullDecl ≠ "" ∧ IsFragment param.fullDecl
  methodTrailing : IsFragment (methodTrailing host method)

instance (method : MethodInfo) : Decidable (Fragments host method) :=
  decidable_of_iff
    ((∀ param ∈ method.tplParams, param.tplDeclName ≠ "" ∧ IsFragment param.tplDeclName) ∧
      (CodeGenerator.methodForwarding host method ≠ "" ∧ IsFragment (CodeGenerator.methodForwarding host method)) ∧
      (method.name ≠ "" ∧ IsFragment method.name) ∧
      (∀ param ∈ method.params, param.fullDecl ≠ "" ∧ IsFragment param.fullDecl) ∧
      IsFragment (CodeGenerator.methodTrailing host method))
    ⟨fun all => ⟨all.1,all.2.1,all.2.2.1,all.2.2.2.1,all.2.2.2.2⟩,
      fun all => ⟨all.tplParams,all.methodForwarding,all.name,all.params,all.methodTrailing⟩⟩

-- What is to be read back from a declaration, and the places in its header
-- where the two lists start.
structure Declaration where
  tplParams : List String
  params : List String
deriving DecidableEq, Repr

structure Places where
  tplParams : Option Nat
  params : Nat
deriving DecidableEq, Repr

def original (method : MethodInfo) : Declaration :=
  ⟨method.tplParams.map TemplateParamInfo.tplDeclName,method.params.map MethodParamInfo.fullDecl⟩

def templateHead (host : Host Record) (method : MethodInfo) : String :=
  if method.isTemplate then "template<" ++ expandTemplateNames host method.tplParams ++ ">" else ""

def declarator (host : Host Record) (method : MethodInfo) : String :=
  methodForwarding host method ++ " " ++ method.name ++ "("

def header (host : Host Record) (method : MethodInfo) : String :=
  templateHead host method ++ declarator host method ++ methodParamDecls host method.params ++ ")" ++ " " ++
    methodTrailing host method

def placesOf (host : Host Record) (method : MethodInfo) : Places where
  tplParams := if method.isTemplate then some "template<".toList.length else none
  params := (templateHead host method ++ declarator host method).toList.length

-- A list is what its bracket encloses, cut at the commas that no further
-- bracket encloses.
def listAt (kind : Bracket) (place : Nat) (header : List Char) : Option (List String) :=
  (group role kind [] (header.drop place)).bind fun read =>
    (list role isComma [' '] read.1).map fun texts => texts.map String.ofList

def declarationAt (places : Places) (header : List Char) : Option Declaration :=
  (match places.tplParams with
  | none => some []
  | some place => listAt .angle place header).bind fun tplParams =>
    (listAt .round places.params header).map fun params => ⟨tplParams,params⟩

def declarationsAt : List Places → List (List Char) → Option (List Declaration)
  | [],[] => some []
  | places :: others,header :: rest =>
    (declarationAt places header).bind fun declaration => (declarationsAt others rest).map (declaration :: ·)
  | [],_ :: _ | _ :: _,[] => none

def headers (text : String) : Option (List (List Char)) := lines role isSemicolon ['\n'] text.toList

def decodeAt (places : List Places) (text : String) : Option (List Declaration) :=
  (headers text).bind (declarationsAt places)

theorem text_header (host : Host Record) (method : MethodInfo) :
    (wrapperOf host "" true method).text = header host method ++ ";\n" := by
  unfold Wrapper.text wrapperOf header templateHead declarator
  simp only [String.append_assoc,Bool.not_true]
  rfl

theorem fragment_semicolon {text : String} (fragment : IsFragment text) : Sealed role isSemicolon text.toList :=
  sealed_weaken (fun c semicolon => by simp [semicolon]) fragment

theorem fragment_comma {text : String} (fragment : IsFragment text) : Sealed role isComma text.toList :=
  sealed_weaken (fun c comma => by simp [comma]) fragment

-- Texts that a list of them gives back. A single empty one would read as no list.
def ListTexts (texts : List String) : Prop := texts ≠ [""] ∧ ∀ text ∈ texts, IsFragment text

instance (texts : List String) : Decidable (ListTexts texts) := inferInstanceAs (Decidable (_ ∧ _))

theorem listTexts_filled {texts : List String} (fragments : ∀ text ∈ texts, text ≠ "" ∧ IsFragment text) :
    ListTexts texts := by
  refine ⟨?_,fun text member => (fragments text member).2⟩
  rintro rfl
  exact (fragments "" (by simp)).1 rfl

theorem separated_sealed {texts : List String} (fragments : ListTexts texts) :
    Sealed role isSemicolon (", ".intercalate texts).toList := by
  rw [String.toList_intercalate]
  apply sealed_intercalate
  · decide
  · intro text member
    obtain ⟨own,inside,rfl⟩ := List.mem_map.mp member
    exact fragment_semicolon (fragments.2 own inside)

theorem listAt_separated {kind : Bracket} {closing : Char} {texts : List String} (lead rest : List Char)
    (closes : role closing = .closes kind) (fragments : ListTexts texts) :
    listAt kind lead.length (lead ++ ((", ".intercalate texts).toList ++ closing :: rest)) = some texts := by
  have filled : texts.map String.toList ≠ [[]] := by
    intro single
    obtain ⟨text,rfl,empty⟩ := List.map_eq_singleton_iff.mp single
    exact fragments.1 (by rw [String.toList_eq_nil_iff.mp empty])
  have members : list role isComma [' '] ((", ".intercalate texts).toList) = some (texts.map String.toList) := by
    rw [String.toList_intercalate]
    apply list_intercalate rfl (by decide) _ filled
    intro text member
    obtain ⟨own,inside,rfl⟩ := List.mem_map.mp member
    exact fragment_comma (fragments.2 own inside)
  unfold listAt
  rw [List.drop_left,group_sealed (separated_sealed fragments) closes,Option.bind_some,members]
  simp [Function.comp_def]

theorem tplParams_listed {method : MethodInfo} (fragments : Fragments host method) :
    ListTexts (original method).tplParams := by
  apply listTexts_filled
  simpa [original] using fragments.tplParams

theorem params_listed {method : MethodInfo} (fragments : Fragments host method) : ListTexts (original method).params := by
  apply listTexts_filled
  simpa [original] using fragments.params

section Header
variable (separator : host.kSeparatorCommaAndWhitespace = ", ")
include separator

theorem expandTemplateNames_original :
    expandTemplateNames host method.tplParams = ", ".intercalate (original method).tplParams := by
  rw [expandTemplateNames_eq,separator]
  rfl

theorem methodParamDecls_original :
    methodParamDecls host method.params = ", ".intercalate (original method).params := by
  rw [methodParamDecls_eq,separator]
  rfl

theorem templateHead_sealed (fragments : Fragments host method) :
    Sealed role isSemicolon (templateHead host method).toList := by
  unfold templateHead
  split
  · rw [expandTemplateNames_original separator,String.append_assoc,String.toList_append,String.toList_append]
    have inside : Sealed role isSemicolon ('<' :: ((", ".intercalate (original method).tplParams).toList ++ ['>'])) :=
      sealed_group rfl rfl rfl (separated_sealed (tplParams_listed fragments))
    have keyword : Sealed role isSemicolon "template".toList := by decide
    have whole := sealed_append keyword inside
    exact whole
  · exact sealed_nil

theorem header_sealed (fragments : Fragments host method) : Sealed role isSemicolon (header host method).toList := by
  have params : Sealed role isSemicolon ('(' :: ((", ".intercalate (original method).params).toList ++ [')'])) :=
    sealed_group rfl rfl rfl (separated_sealed (params_listed fragments))
  have blank : Sealed role isSemicolon " ".toList := by decide
  have forwarding := fragment_semicolon fragments.methodForwarding.2
  have named := fragment_semicolon fragments.name.2
  have trailing := fragment_semicolon fragments.methodTrailing
  have front := sealed_append (templateHead_sealed separator fragments) (sealed_append forwarding (sealed_append blank named))
  have whole := sealed_append (sealed_append front params) (sealed_append blank trailing)
  unfold header declarator
  rw [methodParamDecls_original separator]
  simpa [String.toList_append] using whole

theorem params_read (fragments : Fragments host method) :
    listAt .round (placesOf host method).params (header host method).toList = some (original method).params := by
  have read := listAt_separated (templateHead host method ++ declarator host method).toList
    (" " ++ methodTrailing host method).toList (rfl : role ')' = .closes .round) (params_listed fragments)
  have split : (header host method).toList = (templateHead host method ++ declarator host method).toList ++
      ((", ".intercalate (original method).params).toList ++ ')' :: (" " ++ methodTrailing host method).toList) := by
    unfold header
    rw [methodParamDecls_original separator]
    simp [String.toList_append]
  rw [split]
  exact read

theorem tplParams_read (fragments : Fragments host method) (template : method.isTemplate = true) :
    listAt .angle "template<".toList.length (header host method).toList = some (original method).tplParams := by
  have split : (header host method).toList = "template<".toList ++
      ((", ".intercalate (original method).tplParams).toList ++ '>' :: (declarator host method ++
        methodParamDecls host method.params ++ ")" ++ " " ++ methodTrailing host method).toList) := by
    unfold header templateHead
    rw [if_pos template,expandTemplateNames_original separator]
    simp [String.toList_append]
  rw [split]
  exact listAt_separated _ _ rfl (tplParams_listed fragments)

theorem declaration_read (fragments : Fragments host method)
    (template : method.tplParams ≠ [] → method.isTemplate = true) :
    declarationAt (placesOf host method) (header host method).toList = some (original method) := by
  unfold declarationAt
  rw [params_read separator fragments]
  cases head : method.isTemplate with
  | true =>
    simp only [placesOf,head,if_true,tplParams_read separator fragments head,Option.bind_some]
    rfl
  | false =>
    have none : method.tplParams = [] := by
      apply Classical.byContradiction
      intro some
      rw [template some] at head
      cases head
    simp only [placesOf,head]
    simp [original,none]

theorem declarations_read {methods : List MethodInfo} (fragments : ∀ method ∈ methods, Fragments host method)
    (templates : ∀ method ∈ methods, method.tplParams ≠ [] → method.isTemplate = true) :
    declarationsAt (methods.map (placesOf host)) (methods.map fun method => (header host method).toList) =
      some (methods.map original) := by
  induction methods with
  | nil => rfl
  | cons method rest ih =>
    have tail := ih (fun other member => fragments other (List.mem_cons_of_mem _ member))
      (fun other member => templates other (List.mem_cons_of_mem _ member))
    have head := declaration_read separator (fragments method (by simp)) (templates method (by simp))
    simp [declarationsAt,head,tail]

theorem headers_read {emission : Emission} (generated : Generated host dchecks record "" true emission)
    (fragments : ∀ method ∈ wrapped host record, Fragments host method) :
    headers emission.replacer = some ((wrapped host record).map fun method => (header host method).toList) := by
  obtain ⟨written,wrappers⟩ := generated_wrappers generated
  have text : emission.replacer.toList =
      ((wrapped host record).map fun method => (header host method).toList).flatMap (· ++ ';' :: ['\n']) := by
    rw [written,wrappers,String.toList_join,List.flatMap_map,List.flatMap_map,List.flatMap_map]
    apply List.flatMap_congr
    intro method _
    simp [text_header,String.toList_append]
  unfold headers
  rw [text]
  apply lines_flatMap rfl (by decide)
  intro header member
  obtain ⟨method,inside,rfl⟩ := List.mem_map.mp member
  exact header_sealed separator (fragments method inside)

end Header

-- The same places found in the text alone: a template head starts the header,
-- and the parameter list is the first group directly after a name that is not a
-- keyword with an operand of its own.
def operands : List String := ["decltype","noexcept","alignas","typeof","__attribute__","__declspec"]

def isIdentifierChar (c : Char) : Bool := c.isAlphanum || c == '_'

def opensParams (word : List Char) (stack : List Bracket) (c : Char) : Bool :=
  stack.isEmpty && c == '(' && !word.isEmpty && !operands.contains (String.ofList word)

def nextWord (word : List Char) (c : Char) : List Char := if isIdentifierChar c then word ++ [c] else []

def paramsPlace : List Char → List Bracket → List Char → Option Nat
  | _,_,[] => none
  | word,stack,c :: rest =>
    if opensParams word stack c then some 1
    else (step role stack c).bind fun next => (paramsPlace (nextWord word c) next rest).map (· + 1)

def locate (header : List Char) : Option Places :=
  if "template<".toList.isPrefixOf header then
    (group role .angle [] (header.drop "template<".toList.length)).bind fun read =>
      (paramsPlace [] [] read.2).map fun place => ⟨some "template<".toList.length,header.length - read.2.length + place⟩
  else (paramsPlace [] [] header).map fun place => ⟨none,place⟩

def locateAll : List (List Char) → Option (List Places)
  | [] => some []
  | header :: rest => (locate header).bind fun places => (locateAll rest).map (places :: ·)

def decode (text : String) : Option (List Declaration) :=
  (headers text).bind fun headers => (locateAll headers).bind fun places => declarationsAt places headers

def passesOver : List Char → List Bracket → List Char → Option (List Char × List Bracket)
  | word,stack,[] => some (word,stack)
  | word,stack,c :: rest =>
    if opensParams word stack c then none
    else (step role stack c).bind fun next => passesOver (nextWord word c) next rest

structure Readable (host : Host Record) (method : MethodInfo) : Prop where
  headless : method.isTemplate = false → "template<".toList.isPrefixOf (header host method).toList = false
  methodForwarding : passesOver [] [] (methodForwarding host method ++ " ").toList = some ([],[])
  name : method.name.toList.all isIdentifierChar = true ∧ operands.contains method.name = false

instance (method : MethodInfo) : Decidable (Readable host method) :=
  decidable_of_iff
    ((method.isTemplate = false → "template<".toList.isPrefixOf (header host method).toList = false) ∧
      passesOver [] [] (CodeGenerator.methodForwarding host method ++ " ").toList = some ([],[]) ∧
      (method.name.toList.all isIdentifierChar = true ∧ operands.contains method.name = false))
    ⟨fun all => ⟨all.1,all.2.1,all.2.2⟩,fun all => ⟨all.headless,all.methodForwarding,all.name⟩⟩

theorem paramsPlace_append {word nextWord : List Char} {stack next : List Bracket} {text : List Char}
    (passes : passesOver word stack text = some (nextWord,next)) (rest : List Char) :
    paramsPlace word stack (text ++ rest) = (paramsPlace nextWord next rest).map (· + text.length) := by
  induction text generalizing word stack with
  | nil => cases passes; simp
  | cons c text ih =>
    unfold passesOver at passes
    split at passes
    · cases passes
    · rename_i inside
      obtain ⟨middle,stepped,passes⟩ := Option.bind_eq_some_iff.mp passes
      simp only [List.cons_append,paramsPlace,if_neg inside,stepped,Option.bind_some,ih passes,Option.map_map]
      rfl

theorem passesOver_identifier {text : List Char} (identifier : text.all isIdentifierChar = true) (word : List Char) :
    passesOver word [] text = some (word ++ text,[]) := by
  induction text generalizing word with
  | nil => simp [passesOver]
  | cons c text ih =>
    have own : isIdentifierChar c = true := by simp_all
    have others : text.all isIdentifierChar = true := by simp_all
    have plain : role c = .plain := by
      unfold role
      split <;> first | rfl | (revert own; decide)
    have inside : opensParams word [] c = false := by
      have other : c ≠ '(' := by
        intro same
        rw [same] at plain
        cases plain
      simp [opensParams,other]
    simp [passesOver,inside,step,plain,nextWord,own,ih others]

theorem declarator_passed (readable : Readable host method) (named : method.name ≠ "") (rest : List Char) :
    paramsPlace [] [] ((declarator host method).toList ++ rest) = some (declarator host method).toList.length := by
  have word := passesOver_identifier readable.name.1 []
  have apart : method.name ∉ operands := by simpa using readable.name.2
  have opens : opensParams method.name.toList [] '(' = true := by simp [opensParams,named,apart]
  have split : (declarator host method).toList ++ rest =
      (methodForwarding host method ++ " ").toList ++ (method.name.toList ++ '(' :: rest) := by
    simp [declarator,String.toList_append]
  rw [split,paramsPlace_append readable.methodForwarding,paramsPlace_append word,List.nil_append,paramsPlace,if_pos opens]
  simp [declarator,String.toList_append]
  omega

theorem located (separator : host.kSeparatorCommaAndWhitespace = ", ") (fragments : Fragments host method)
    (readable : Readable host method) : locate (header host method).toList = some (placesOf host method) := by
  have named := fragments.name.1
  cases head : method.isTemplate with
  | false =>
    have split : (header host method).toList =
        (declarator host method).toList ++ (methodParamDecls host method.params ++ ")" ++ " " ++ methodTrailing host method).toList := by
      simp [header,templateHead,head,String.toList_append]
    unfold locate
    rw [if_neg (by rw [readable.headless head]; exact Bool.false_ne_true),split,declarator_passed readable named]
    simp [placesOf,templateHead,head]
  | true =>
    have split : (header host method).toList = "template<".toList ++
        ((", ".intercalate (original method).tplParams).toList ++ '>' :: ((declarator host method).toList ++
          (methodParamDecls host method.params ++ ")" ++ " " ++ methodTrailing host method).toList)) := by
      simp [header,templateHead,head,expandTemplateNames_original separator,String.toList_append]
    unfold locate
    rw [split,if_pos (by simp),List.drop_left,group_sealed (separated_sealed (tplParams_listed fragments)) rfl,Option.bind_some,
      declarator_passed readable named]
    simp [placesOf,templateHead,head,expandTemplateNames_original separator,String.toList_append]
    omega

theorem all_located (separator : host.kSeparatorCommaAndWhitespace = ", ") {methods : List MethodInfo}
    (fragments : ∀ method ∈ methods, Fragments host method) (readable : ∀ method ∈ methods, Readable host method) :
    locateAll (methods.map fun method => (header host method).toList) = some (methods.map (placesOf host)) := by
  induction methods with
  | nil => rfl
  | cons method rest ih =>
    have tail := ih (fun other member => fragments other (List.mem_cons_of_mem _ member))
      (fun other member => readable other (List.mem_cons_of_mem _ member))
    have head := located separator (fragments method (by simp)) (readable method (by simp))
    simp [locateAll,head,tail]

-- The text of a declaration list gives its list back: cut at the semicolons it
-- gives the headers, and what the brackets at the two places of a header enclose
-- gives the two lists of its method. Where the headers read like C++ the places
-- need not be known either.
theorem declarations_decoded {emission : Emission} (generated : Generated host dchecks record "" true emission)
    (separator : host.kSeparatorCommaAndWhitespace = ", ")
    (fragments : ∀ method ∈ wrapped host record, Fragments host method)
    (templates : ∀ method ∈ wrapped host record, method.tplParams ≠ [] → method.isTemplate = true) :
    headers emission.replacer = some ((wrapped host record).map fun method => (header host method).toList) ∧
      decodeAt ((wrapped host record).map (placesOf host)) emission.replacer =
        some ((wrapped host record).map original) ∧
      ((∀ method ∈ wrapped host record, Readable host method) →
        decode emission.replacer = some ((wrapped host record).map original)) := by
  have cutText := headers_read separator generated fragments
  have read := declarations_read separator fragments templates
  refine ⟨cutText,?_,?_⟩
  · unfold decodeAt
    rw [cutText]
    exact read
  · intro readable
    unfold decode
    rw [cutText,Option.bind_some,all_located separator fragments readable]
    exact read

def mapImpl : ClassInfo Unit where
  name := "MapImpl"
  decl := some ()
  methods := [
    {name := "find",decl := some {annotations := [],returnType := "decltype(auto)"},isTemplate := true,
     tplParams := [⟨"typename Key"⟩,⟨"class Less = std::less<Key, void>"⟩],
     params := [⟨"pair","std::pair<Key, int> pair"⟩,⟨"less","Less less = Less(1, 2)"⟩]},
    {name := "size",decl := some {annotations := [],returnType := "int"}}]
  ASTRecordSize := 8
  ASTRecordNonVirtualAlignment := 8

def mapDeclarations : Emission :=
  emitMethodCalls (plainHost fun _ : Unit => mapImpl) "" true mapImpl.methods ⟨"",[]⟩

theorem declarations_decoded_witness :
    headers mapDeclarations.replacer =
        some (mapImpl.methods.map fun method => (header (plainHost fun _ : Unit => mapImpl) method).toList) ∧
      decodeAt (mapImpl.methods.map (placesOf (plainHost fun _ : Unit => mapImpl))) mapDeclarations.replacer =
        some (mapImpl.methods.map original) ∧
      decode mapDeclarations.replacer = some (mapImpl.methods.map original) :=
  have decoded := declarations_decoded (generated_declarations false () rfl (by decide)) rfl (by decide) (by decide)
  ⟨decoded.1,decoded.2.1,decoded.2.2 (by decide)⟩

end FlexPimpl.Declarations
