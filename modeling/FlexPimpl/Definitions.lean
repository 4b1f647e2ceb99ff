import FlexPimpl.Declarations

namespace FlexPimpl.Definitions
open CodeGenerator Wrappers Brackets Declarations

-- A member function with its body, as its text reads: the lists member by
-- member, and the texts around them.
structure Definition where
  tplParams : Option (List String)
  declarator : String
  params : List String
  trailing : String
  callee : String
  arguments : List String
deriving DecidableEq, Repr

def separatedText (texts : List String) : String := ", ".intercalate texts

def Definition.head (definition : Definition) : String :=
  match definition.tplParams with
  | none => ""
  | some names => "template<" ++ separatedText names ++ ">"

def Definition.call (definition : Definition) : String :=
  definition.callee ++ "(" ++ separatedText definition.arguments ++ ");\n\x7d\n"

def Definition.text (definition : Definition) : String :=
  definition.head ++ definition.declarator ++ "(" ++ separatedText definition.params ++ ")" ++ definition.trailing ++
    "\x7b\n return impl_->" ++ definition.call

def isBrace (c : Char) : Bool := c == '\x7b'

def readList (kind : Bracket) (text : List Char) : Option (List String × List Char) :=
  (listAt kind 0 text).bind fun members => (group role kind [] text).map fun read => (members,read.2)

def readHead (text : List Char) : Option (Option (List String) × List Char) :=
  if "template<".toList.isPrefixOf text then
    (readList .angle (text.drop "template<".toList.length)).map fun read => (some read.1,read.2)
  else some (none,text)

-- A text up to the first group that can be a parameter list.
def readCallee (text : List Char) : Option (String × List Char) :=
  (paramsPlace [] [] text).map fun place => (String.ofList (text.take (place - 1)),text.drop place)

def readCall (text : List Char) : Option ((String × List String) × List Char) :=
  (readCallee text).bind fun callee => (readList .round callee.2).bind fun arguments =>
    (arguments.2.dropPrefix? ";\n\x7d\n".toList).map fun rest => ((callee.1,arguments.1),rest)

def readDefinition (text : List Char) : Option (Definition × List Char) :=
  (readHead text).bind fun head => (readCallee head.2).bind fun declarator =>
    (readList .round declarator.2).bind fun params => (upTo role isBrace [] params.2).bind fun trailing =>
      (trailing.2.dropPrefix? "\x7b\n return impl_->".toList).bind fun body => (readCall body).map fun call =>
        (⟨head.1,declarator.1,params.1,String.ofList trailing.1,call.1.1,call.1.2⟩,call.2)

def readDefinitions (text : String) : Option (List Definition) := items readDefinition text.toList.length text.toList

-- A name, with what stands before it, that the parameter list follows.
def Names (text : String) : Prop := paramsPlace [] [] (text ++ "(").toList = some (text.toList.length + 1)

instance (text : String) : Decidable (Names text) := inferInstanceAs (Decidable (_ = _))

structure Definition.Legible (definition : Definition) : Prop where
  tplParams : ∀ names ∈ definition.tplParams, ListTexts names
  headless : definition.tplParams = none → "template<".toList.isPrefixOf definition.text.toList = false
  declarator : Names definition.declarator
  params : ListTexts definition.params
  trailing : Sealed role isBrace definition.trailing.toList
  callee : Names definition.callee
  arguments : ListTexts definition.arguments

instance (definition : Definition) : Decidable definition.Legible :=
  decidable_of_iff
    ((∀ names ∈ definition.tplParams, ListTexts names) ∧
      (definition.tplParams = none → "template<".toList.isPrefixOf definition.text.toList = false) ∧
      Names definition.declarator ∧ ListTexts definition.params ∧
      Sealed role isBrace definition.trailing.toList ∧ Names definition.callee ∧ ListTexts definition.arguments)
    ⟨fun all => ⟨all.1,all.2.1,all.2.2.1,all.2.2.2.1,all.2.2.2.2.1,all.2.2.2.2.2.1,all.2.2.2.2.2.2⟩,
      fun all => ⟨all.tplParams,all.headless,all.declarator,all.params,all.trailing,all.callee,all.arguments⟩⟩

theorem readList_separated {kind : Bracket} {closing : Char} {texts : List String} (rest : List Char)
    (closes : role closing = .closes kind) (fragments : ListTexts texts) :
    readList kind ((separatedText texts).toList ++ closing :: rest) = some (texts,rest) := by
  have members := listAt_separated [] rest closes fragments
  have read := group_sealed (separated_sealed fragments) closes rest
  rw [List.length_nil,List.nil_append] at members
  unfold readList separatedText
  rw [members,read]
  rfl

theorem paramsPlace_found {word : List Char} {stack : List Bracket} {text : List Char} {place : Nat}
    (found : paramsPlace word stack text = some place) (rest : List Char) :
    paramsPlace word stack (text ++ rest) = some place := by
  induction text generalizing word stack place with
  | nil => cases found
  | cons c text ih =>
    simp only [List.cons_append,paramsPlace] at found ⊢
    split at found
    · rename_i opens
      rw [if_pos opens]
      exact found
    · rename_i passes
      rw [if_neg passes]
      obtain ⟨next,stepped,inside⟩ := Option.bind_eq_some_iff.mp found
      obtain ⟨later,earlier,same⟩ := Option.map_eq_some_iff.mp inside
      rw [stepped,Option.bind_some,ih earlier,Option.map_some,same]

theorem readCallee_names {text : String} (names : Names text) (rest : List Char) :
    readCallee (text.toList ++ '(' :: rest) = some (text,rest) := by
  have found := paramsPlace_found names rest
  have split : (text ++ "(").toList ++ rest = text.toList ++ '(' :: rest := by simp [String.toList_append]
  have after : (text.toList ++ '(' :: rest).drop (text.toList.length + 1) = rest := by simp [List.drop_append]
  rw [split] at found
  unfold readCallee
  rw [found,Option.map_some,Nat.add_sub_cancel,List.take_left,after,String.ofList_toList]

theorem isPrefixOf_front {front text rest : List Char} (enough : front.length ≤ text.length) :
    front.isPrefixOf (text ++ rest) = front.isPrefixOf text := by
  apply Bool.eq_iff_iff.mpr
  rw [List.isPrefixOf_iff_prefix,List.isPrefixOf_iff_prefix]
  constructor
  · intro starts
    exact List.prefix_of_prefix_length_le starts (List.prefix_append text rest) enough
  · intro starts
    exact starts.trans (List.prefix_append text rest)

theorem text_length (definition : Definition) : "template<".toList.length ≤ definition.text.toList.length := by
  unfold Definition.text
  simp only [String.toList_append,List.length_append]
  have body : "template<".toList.length ≤ "\x7b\n return impl_->".toList.length := by decide
  omega

theorem readHead_head {definition : Definition} (legible : definition.Legible) (rest : List Char) {after : List Char}
    (whole : definition.text.toList = definition.head.toList ++ after) :
    readHead (definition.text.toList ++ rest) = some (definition.tplParams,after ++ rest) := by
  unfold readHead
  cases names : definition.tplParams with
  | none =>
    have plain := legible.headless names
    rw [isPrefixOf_front (text_length definition),plain,whole]
    simp [Definition.head,names]
  | some texts =>
    have split : definition.text.toList ++ rest =
        "template<".toList ++ ((separatedText texts).toList ++ '>' :: (after ++ rest)) := by
      rw [whole]
      simp [Definition.head,names,String.toList_append]
    rw [split,if_pos (by simp),List.drop_left,readList_separated _ rfl (legible.tplParams texts names)]
    rfl

theorem readCall_call {definition : Definition} (legible : definition.Legible) (rest : List Char) :
    readCall (definition.call.toList ++ rest) = some ((definition.callee,definition.arguments),rest) := by
  have split : definition.call.toList ++ rest = definition.callee.toList ++
      '(' :: ((separatedText definition.arguments).toList ++ ')' :: (";\n\x7d\n".toList ++ rest)) := by
    simp [Definition.call,String.toList_append]
  unfold readCall
  rw [split,readCallee_names legible.callee,Option.bind_some,readList_separated _ rfl legible.arguments,
    Option.bind_some,List.dropPrefix?_append_of_beq rest (beq_self_eq_true ";\n\x7d\n".toList)]
  rfl

theorem definition_read {definition : Definition} (legible : definition.Legible) (rest : List Char) :
    readDefinition (definition.text.toList ++ rest) = some (definition,rest) := by
  let body := "\x7b\n return impl_->".toList ++ definition.call.toList
  let after := definition.declarator.toList ++
    '(' :: ((separatedText definition.params).toList ++ ')' :: (definition.trailing.toList ++ body))
  have whole : definition.text.toList = definition.head.toList ++ after := by
    simp [Definition.text,after,body,String.toList_append]
  have split : after ++ rest = definition.declarator.toList ++ '(' :: ((separatedText definition.params).toList ++
      ')' :: (definition.trailing.toList ++ '\x7b' :: ("\n return impl_->".toList ++ (definition.call.toList ++ rest)))) := by
    simp [after,body]
  have front : '\x7b' :: ("\n return impl_->".toList ++ (definition.call.toList ++ rest)) =
      "\x7b\n return impl_->".toList ++ (definition.call.toList ++ rest) := rfl
  unfold readDefinition
  rw [readHead_head legible rest whole,Option.bind_some,split,readCallee_names legible.declarator,Option.bind_some,
    readList_separated _ rfl legible.params,Option.bind_some,upTo_sealed legible.trailing rfl,Option.bind_some,front,
    List.dropPrefix?_append_of_beq _ (beq_self_eq_true "\x7b\n return impl_->".toList),Option.bind_some,
    readCall_call legible rest,Option.map_some,String.ofList_toList]

theorem texts_read {definitions : List Definition} (legible : ∀ definition ∈ definitions, definition.Legible) :
    readDefinitions (String.join (definitions.map Definition.text)) = some definitions := by
  have filled : ∀ definition ∈ definitions, definition.text.toList ≠ [] := by
    intro definition _ empty
    have length := text_length definition
    rw [empty] at length
    exact absurd length (by decide)
  have enough := flatMap_length filled
  unfold readDefinitions
  rw [String.toList_join,List.flatMap_map]
  exact items_flatMap filled (fun definition member rest => definition_read (legible definition member) rest) enough

section Emitted
variable {Record : Type} {host : Host Record} {dchecks : Bool} {record : Record}
  {interfaceParameterQualType : String} {expression : MethodParamInfo → String}

def definitionOf (host : Host Record) (interfaceParameterQualType : String) (expression : MethodParamInfo → String)
    (method : MethodInfo) : Definition where
  tplParams := if method.isTemplate then some (original method).tplParams else none
  declarator := methodForwarding host method ++ " " ++
    (if interfaceParameterQualType ≠ "" then interfaceParameterQualType ++ "::" else "") ++ method.name
  params := (original method).params
  trailing := " " ++ methodTrailing host method ++ "\n"
  callee := method.name
  arguments := method.params.map expression

-- The library's printers for lists, as far as the readers rely on them.
structure ListPrinters (host : Host Record) (expression : MethodParamInfo → String) : Prop where
  separator : host.kSeparatorCommaAndWhitespace = ", "
  forwards : ∀ params, host.forwardMethodParamNames params = ", ".intercalate (params.map expression)

theorem wrapper_text (printers : ListPrinters host expression) (method : MethodInfo) :
    (wrapperOf host interfaceParameterQualType false method).text =
      (definitionOf host interfaceParameterQualType expression method).text := by
  unfold Wrapper.text
  rw [body_forwards,printers.forwards]
  simp only [wrapperOf,definitionOf,Definition.text,Definition.head,Definition.call,separatedText,
    methodParamDecls_original printers.separator,expandTemplateNames_original printers.separator]
  cases method.isTemplate <;> simp only [String.append_assoc] <;> rfl

theorem emission_text {emission : Emission}
    (generated : Generated host dchecks record interfaceParameterQualType false emission)
    (printers : ListPrinters host expression) : emission.replacer = String.join
      (((wrapped host record).map (definitionOf host interfaceParameterQualType expression)).map Definition.text) := by
  obtain ⟨written,wrappers⟩ := generated_wrappers generated
  rw [written,wrappers,List.map_map,List.map_map]
  exact congrArg String.join (List.map_congr_left fun method _ => wrapper_text printers method)

-- An empty argument that stands alone leaves no trace.
def Definition.printed (definition : Definition) : Definition :=
  {definition with arguments := if definition.arguments = [""] then [] else definition.arguments}

theorem printed_text (definition : Definition) : definition.printed.text = definition.text := by
  unfold Definition.printed
  split
  · rename_i alone
    simp only [Definition.text,Definition.call,separatedText,alone]
    rfl
  · rfl

theorem definitions_legible {methods : List MethodInfo}
    (legible : ∀ method ∈ methods, (definitionOf host interfaceParameterQualType expression method).Legible) :
    ∀ definition ∈ methods.map (definitionOf host interfaceParameterQualType expression), definition.Legible := by
  intro definition member
  obtain ⟨method,inside,rfl⟩ := List.mem_map.mp member
  exact legible method inside

-- The text of a definition list gives its list back: every selected method with
-- its template head, its lists, and a body that forwards its own arguments to
-- the method of its own name.
theorem definitions_decoded {emission : Emission}
    (generated : Generated host dchecks record interfaceParameterQualType false emission)
    (printers : ListPrinters host expression)
    (legible : ∀ method ∈ wrapped host record,
      (definitionOf host interfaceParameterQualType expression method).Legible) :
    readDefinitions emission.replacer =
      some ((wrapped host record).map (definitionOf host interfaceParameterQualType expression)) := by
  rw [emission_text generated printers]
  exact texts_read (definitions_legible legible)

end Emitted

def mapDefinitions : Emission :=
  emitMethodCalls (plainHost fun _ : Unit => mapImpl) "Map" false mapImpl.methods ⟨"",[]⟩

theorem definitions_decoded_witness : readDefinitions mapDefinitions.replacer =
    some (mapImpl.methods.map (definitionOf (plainHost fun _ : Unit => mapImpl) "Map" MethodParamInfo.name)) :=
  definitions_decoded (generated_definitions false () rfl (by decide) (by decide)) ⟨rfl,fun _ => rfl⟩ (by decide)

end FlexPimpl.Definitions
