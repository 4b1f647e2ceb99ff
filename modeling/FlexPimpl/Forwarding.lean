import FlexPimpl.Definitions
import FlexPimpl.Members
import FlexPimpl.Objects

namespace FlexPimpl.Forwarding
open CodeGenerator Wrappers Members Declarations Definitions Objects

variable {Record Signature Query Special : Type} {host : Host Record} {dchecks : Bool} {record : Record}
  {interfaceParameterQualType : String} {expression : MethodParamInfo → String}

-- What a compiler makes of the texts of a definition.
structure NameReader where
  declares : String → Option String
  refersTo : String → Option String

structure FrontEnd (Signature Query Special : Type) extends NameReader where
  signature : Definition → Signature
  call : Definition → Special → Option Query
  resolve : Resolution Signature Query Special

def place (reader : NameReader) (params : List String) (argument : String) : Option Nat :=
  (reader.refersTo argument).bind fun name => params.findIdx? fun param => reader.declares param == some name

def member (frontEnd : FrontEnd Signature Query Special) (definition : Definition) :
    Forwarder Signature Query Special where
  signature := frontEnd.signature definition
  query := frontEnd.call definition
  arguments := definition.arguments.map (place frontEnd.toNameReader definition.params)

def implementation (host : Host Record) (source : MethodInfo → Member) (declared : MethodInfo → Signature)
    (record : Record) : Class Signature MethodInfo where
  members := (host.ReflectClass record).methods
  signature := declared
  allows := fun method => (source method).access == .AS_public && !(source method).isDeleted

def printedOf (host : Host Record) (interfaceParameterQualType : String) (expression : MethodParamInfo → String)
    (method : MethodInfo) : Definition := (definitionOf host interfaceParameterQualType expression method).printed

def interface (host : Host Record) (interfaceParameterQualType : String) (expression : MethodParamInfo → String)
    (frontEnd : FrontEnd Signature Query Special) (record : Record) : Class Signature MethodInfo where
  members := wrapped host record
  signature := fun method => frontEnd.signature (printedOf host interfaceParameterQualType expression method)
  allows := fun _ => true

def nameOf (param : MethodParamInfo) : Option String := if param.name = "" then none else some param.name

-- Parameters and arguments read as what they are printed from. A wrapper is
-- chosen for as many arguments as it has parameters, the caller's defaults included.
structure ReadsAs (host : Host Record) (interfaceParameterQualType : String) (expression : MethodParamInfo → String)
    (frontEnd : FrontEnd Signature Query Special) (record : Record) : Prop where
  declares : ∀ method ∈ wrapped host record, ∀ param ∈ method.params, frontEnd.declares param.fullDecl = nameOf param
  refersTo : ∀ method ∈ wrapped host record, ∀ param ∈ method.params,
    frontEnd.refersTo (expression param) = nameOf param
  shown : ∀ method ∈ wrapped host record, ∀ param ∈ method.params, param.name ≠ "" → expression param ≠ ""
  distinct : ∀ method ∈ wrapped host record,
    method.params.Pairwise fun first second => first.name = second.name → first.name = ""
  counts : ∀ query n wrapper special,
    (interface host interfaceParameterQualType expression frontEnd record).chosen frontEnd.resolve query n =
      some (wrapper,special) → wrapper.params.length = n

section Conditions
variable (host : Host Record) (interfaceParameterQualType : String) (expression : MethodParamInfo → String)
  (frontEnd : FrontEnd Signature Query Special) (source : MethodInfo → Member) (declared : MethodInfo → Signature)
  (record : Record)

-- The body of a wrapper calls this method, among all methods of the implementation.
structure Calls (wrapper : MethodInfo) (special : Special) (method : MethodInfo) (own : Special) : Prop where
  named : ∀ param ∈ wrapper.params, param.name ≠ ""
  selects : ∃ query, frontEnd.call (printedOf host interfaceParameterQualType expression wrapper) special = some query ∧
    (implementation host source declared record).chosen frontEnd.resolve query wrapper.params.length = some (method,own)
  accessible : (source method).access = .AS_public
  defined : (source method).isDeleted = false

-- A call of the interface that means a selected method finds a wrapper that
-- calls it; a call that means none finds no wrapper whose own call gets through.
structure Routes (query : Query) (n : Nat) : Prop where
  forwards : ∀ method own,
    ((implementation host source declared record).offers (wrapped host record)).chosen frontEnd.resolve query n =
      some (method,own) →
    ∃ wrapper special,
      (interface host interfaceParameterQualType expression frontEnd record).chosen frontEnd.resolve query n =
        some (wrapper,special) ∧
      Calls host interfaceParameterQualType expression frontEnd source declared record wrapper special method own
  refuses :
    ((implementation host source declared record).offers (wrapped host record)).chosen frontEnd.resolve query n = none →
    ∀ wrapper special,
      (interface host interfaceParameterQualType expression frontEnd record).chosen frontEnd.resolve query n =
        some (wrapper,special) →
      Stuck frontEnd.resolve (implementation host source declared record)
        (member frontEnd (printedOf host interfaceParameterQualType expression wrapper)) n special

end Conditions

theorem places_exact {Item : Type} {items : List Item} {places : Item → Option Nat} :
    items.map places = (List.range items.length).map some ↔
      ∀ (i : Nat) (inside : i < items.length), places items[i] = some i := by
  constructor
  · intro equal i inside
    have own := congrArg (fun all => all[i]?) equal
    simpa [inside] using own
  · intro each
    apply List.ext_getElem
    · simp
    · intro i inside _
      rw [List.length_map] at inside
      simpa using each i inside

section Places
variable {frontEnd : FrontEnd Signature Query Special} {method : MethodInfo}
  (reads : ReadsAs host interfaceParameterQualType expression frontEnd record) (inside : method ∈ wrapped host record)
include reads inside

theorem place_unnamed {param : MethodParamInfo} (listed : param ∈ method.params) (unnamed : param.name = "") :
    place frontEnd.toNameReader (original method).params (expression param) = none := by
  simp [place,reads.refersTo method inside param listed,nameOf,unnamed]

theorem place_named {i : Nat} (bounded : i < method.params.length) (named : method.params[i].name ≠ "") :
    place frontEnd.toNameReader (original method).params (expression method.params[i]) = some i := by
  have declares : ∀ param ∈ method.params, frontEnd.declares param.fullDecl = nameOf param := reads.declares method inside
  unfold place
  rw [reads.refersTo method inside _ (List.getElem_mem bounded)]
  simp only [nameOf,named,if_false,Option.bind_some,original,List.findIdx?_map]
  rw [List.findIdx?_eq_some_iff_getElem]
  refine ⟨bounded,?_,?_⟩
  · simp [declares _ (List.getElem_mem bounded),nameOf,named]
  · intro j earlier
    have apart := List.pairwise_iff_getElem.mp (reads.distinct method inside) j i (by omega) bounded earlier
    have other := declares _ (List.getElem_mem (Nat.lt_trans earlier bounded))
    intro found
    rw [Function.comp_apply,other,beq_iff_eq] at found
    unfold nameOf at found
    split at found
    · cases found
    · rename_i filled
      exact filled (apart (Option.some.inj found))

-- A parameter that stands alone without a name leaves no argument at all.
theorem printed_arguments : (printedOf host interfaceParameterQualType expression method).arguments =
      method.params.map expression ∨
    (printedOf host interfaceParameterQualType expression method).arguments = [] ∧
      ∃ param, method.params = [param] ∧ param.name = "" := by
  by_cases alone : method.params.map expression = [""]
  · obtain ⟨param,single,empty⟩ := List.map_eq_singleton_iff.mp alone
    refine Or.inr ⟨if_pos alone,param,single,?_⟩
    by_contra named
    exact reads.shown method inside param (by simp [single]) named empty
  · exact Or.inl (if_neg alone)

theorem member_places :
    (member frontEnd (printedOf host interfaceParameterQualType expression method)).arguments =
      (List.range method.params.length).map some ↔ ∀ param ∈ method.params, param.name ≠ "" := by
  have arguments : (member frontEnd (printedOf host interfaceParameterQualType expression method)).arguments =
      (printedOf host interfaceParameterQualType expression method).arguments.map
        (place frontEnd.toNameReader (original method).params) := rfl
  rw [arguments]
  rcases printed_arguments reads inside with printed | ⟨printed,param,single,unnamed⟩
  · rw [printed,List.map_map,places_exact]
    constructor
    · intro placed param listed unnamed
      obtain ⟨i,bounded,rfl⟩ := List.getElem_of_mem listed
      have own := placed i bounded
      rw [Function.comp_apply,place_unnamed reads inside (List.getElem_mem bounded) unnamed] at own
      cases own
    · intro named i bounded
      exact place_named reads inside bounded (named _ (List.getElem_mem bounded))
  · rw [printed,single]
    simp [unnamed]

variable {source : MethodInfo → Member} {declared : MethodInfo → Signature}

theorem member_forwards {special own : Special} {target : MethodInfo} :
    Forwards frontEnd.resolve (implementation host source declared record)
        (member frontEnd (printedOf host interfaceParameterQualType expression method)) method.params.length special
        target own ↔
      Calls host interfaceParameterQualType expression frontEnd source declared record method special target own := by
  constructor
  · intro forwards
    have size := congrArg List.length forwards.arguments
    rw [List.length_map,List.length_range] at size
    obtain ⟨query,called,reached⟩ := Option.bind_eq_some_iff.mp forwards.leads
    obtain ⟨chosen,allowed⟩ := reached_exact.mp reached
    rw [size] at chosen
    simp only [implementation,Bool.and_eq_true,beq_iff_eq,Bool.not_eq_true'] at allowed
    exact ⟨(member_places reads inside).mp forwards.arguments,⟨query,called,chosen⟩,allowed.1,allowed.2⟩
  · intro calls
    obtain ⟨query,called,chosen⟩ := calls.selects
    have arguments := (member_places reads inside).mpr calls.named
    have size := congrArg List.length arguments
    rw [List.length_map,List.length_range] at size
    have allowed : (implementation host source declared record).allows target = true := by
      simp [implementation,calls.accessible,calls.defined]
    refine ⟨Option.bind_eq_some_iff.mpr ⟨query,called,?_⟩,arguments⟩
    rw [size]
    exact reached_exact.mpr ⟨chosen,allowed⟩

end Places

theorem proxy_chosen (frontEnd : FrontEnd Signature Query Special) (query : Query) (n : Nat) :
    (proxy ((wrapped host record).map fun method =>
        member frontEnd (printedOf host interfaceParameterQualType expression method))).chosen frontEnd.resolve query n =
      ((interface host interfaceParameterQualType expression frontEnd record).chosen frontEnd.resolve query n).map
        fun found => (member frontEnd (printedOf host interfaceParameterQualType expression found.1),found.2) := chosen_map

theorem interface_routed {frontEnd : FrontEnd Signature Query Special} {source : MethodInfo → Member}
    {declared : MethodInfo → Signature} (reads : ReadsAs host interfaceParameterQualType expression frontEnd record)
    (query : Query) (n : Nat) :
    Routed frontEnd.resolve (implementation host source declared record)
        ((wrapped host record).map fun method =>
          member frontEnd (printedOf host interfaceParameterQualType expression method))
        (wrapped host record) query n ↔
      Routes host interfaceParameterQualType expression frontEnd source declared record query n := by
  have listed : ∀ {wrapper special},
      (interface host interfaceParameterQualType expression frontEnd record).chosen frontEnd.resolve query n =
        some (wrapper,special) → wrapper ∈ wrapped host record := fun chosen => chosen_member chosen
  constructor
  · intro routed
    constructor
    · intro method own meant
      obtain ⟨forwarder,special,chosen,forwards⟩ := routed.forwards method own meant
      rw [proxy_chosen] at chosen
      obtain ⟨⟨wrapper,same⟩,found,equal⟩ := Option.map_eq_some_iff.mp chosen
      cases equal
      have counted := reads.counts _ _ _ _ found
      rw [← counted] at forwards
      exact ⟨wrapper,same,found,(member_forwards reads (listed found)).mp forwards⟩
    · intro none wrapper special found
      exact routed.refuses none _ special (by rw [proxy_chosen,found,Option.map_some])
  · intro routes
    constructor
    · intro method own meant
      obtain ⟨wrapper,special,found,calls⟩ := routes.forwards method own meant
      have forwards := (member_forwards reads (listed found)).mpr calls
      rw [reads.counts _ _ _ _ found] at forwards
      exact ⟨_,special,by rw [proxy_chosen,found,Option.map_some],forwards⟩
    · intro none forwarder special chosen
      rw [proxy_chosen] at chosen
      obtain ⟨⟨wrapper,same⟩,found,equal⟩ := Option.map_eq_some_iff.mp chosen
      cases equal
      exact routes.refuses none wrapper same found

-- Where the headers read as the declarations of the methods, a call means the
-- wrapper in the place of the method that it means.
theorem routes_declared {frontEnd : FrontEnd Signature Query Special} {source : MethodInfo → Member}
    {declared : MethodInfo → Signature} (same : ∀ method ∈ wrapped host record,
      frontEnd.signature (printedOf host interfaceParameterQualType expression method) = declared method) :
    (∀ query n, Routes host interfaceParameterQualType expression frontEnd source declared record query n) ↔
      ∀ query n method own,
        ((implementation host source declared record).offers (wrapped host record)).chosen frontEnd.resolve query n =
          some (method,own) →
        Calls host interfaceParameterQualType expression frontEnd source declared record method own method own := by
  have alike : ∀ query n,
      (interface host interfaceParameterQualType expression frontEnd record).chosen frontEnd.resolve query n =
        ((implementation host source declared record).offers (wrapped host record)).chosen frontEnd.resolve query n := by
    intro query n
    unfold Class.chosen
    have signatures : (interface host interfaceParameterQualType expression frontEnd record).members.map
        (interface host interfaceParameterQualType expression frontEnd record).signature =
          (wrapped host record).map declared := List.map_congr_left same
    rw [signatures]
    rfl
  constructor
  · intro routes query n method own meant
    obtain ⟨wrapper,special,found,calls⟩ := (routes query n).forwards method own meant
    rw [alike,meant] at found
    cases found
    exact calls
  · intro calls query n
    constructor
    · intro method own meant
      exact ⟨method,own,by rw [alike,meant],calls query n method own meant⟩
    · intro none wrapper special found
      rw [alike,none] at found
      cases found

theorem printed_read {emission : Emission}
    (generated : Generated host dchecks record interfaceParameterQualType false emission)
    (printers : ListPrinters host expression)
    (legible : ∀ method ∈ wrapped host record,
      (printedOf host interfaceParameterQualType expression method).Legible) :
    readDefinitions emission.replacer =
      some ((wrapped host record).map (printedOf host interfaceParameterQualType expression)) := by
  have texts : (wrapped host record).map (fun method =>
      (definitionOf host interfaceParameterQualType expression method).text) =
        (wrapped host record).map fun method => (printedOf host interfaceParameterQualType expression method).text :=
    List.map_congr_left fun method _ => (printed_text _).symm
  have all : ∀ definition ∈ (wrapped host record).map (printedOf host interfaceParameterQualType expression),
      definition.Legible := by
    intro definition listed
    obtain ⟨method,inside,rfl⟩ := List.mem_map.mp listed
    exact legible method inside
  have read := texts_read all
  rw [List.map_map] at read
  rw [emission_text generated printers,List.map_map]
  exact (congrArg (fun texts => readDefinitions (String.join texts)) texts).trans read

theorem interface_faithful {frontEnd : FrontEnd Signature Query Special} {source : MethodInfo → Member}
    {declared : MethodInfo → Signature} (reads : ReadsAs host interfaceParameterQualType expression frontEnd record) :
    Faithful frontEnd.resolve (implementation host source declared record)
        (((wrapped host record).map (printedOf host interfaceParameterQualType expression)).map (member frontEnd))
        (wrapped host record) ↔
      ∀ query n, Routes host interfaceParameterQualType expression frontEnd source declared record query n := by
  rw [List.map_map,faithful_exact]
  exact forall_congr' fun query => forall_congr' fun n => interface_routed reads query n

-- The generated class, read back from its text, goes through the same calls as
-- an object that offers just the selected methods, whatever they do, exactly
-- when every call finds its method again behind a wrapper.
theorem forwarding_exact {emission : Emission}
    (generated : Generated host dchecks record interfaceParameterQualType false emission)
    (printers : ListPrinters host expression)
    (legible : ∀ method ∈ wrapped host record,
      (printedOf host interfaceParameterQualType expression method).Legible)
    {frontEnd : FrontEnd Signature Query Special}
    (reads : ReadsAs host interfaceParameterQualType expression frontEnd record) (source : MethodInfo → Member)
    (declared : MethodInfo → Signature) :
    ∃ definitions, readDefinitions emission.replacer = some definitions ∧
      (Faithful frontEnd.resolve (implementation host source declared record) (definitions.map (member frontEnd))
          (wrapped host record) ↔
        ∀ query n, Routes host interfaceParameterQualType expression frontEnd source declared record query n) := by
  exact ⟨_,printed_read generated printers legible,interface_faithful reads⟩

-- A compiler that goes by names and numbers of arguments, and the repository's test class.
def lastWord (text : String) : Option String :=
  let word := (text.toList.reverse.takeWhile isIdentifierChar).reverse
  if word = [] then none else some (String.ofList word)

def wordFrontEnd : FrontEnd (Option String × Nat) (Option String) Unit where
  signature := fun definition => (lastWord definition.declarator,definition.params.length)
  call := fun definition _ => some (some definition.callee)
  declares := lastWord
  refersTo := lastWord
  resolve := fun signatures query n => (signatures.findIdx? (· == (query,n))).map fun i => (i,())

def byWord (method : MethodInfo) : Option String × Nat := (some method.name,method.params.length)

def fooHost : Host Unit := plainHost fun _ => MethodCalls.fooImpl

def forwardedFoo : Emission :=
  emitMethodCalls fooHost "Foo" false (Tooling.cleaned MethodCalls.fooImpl).methods ⟨"",[]⟩

theorem foo_declared : ∀ method ∈ wrapped fooHost (),
    wordFrontEnd.signature (printedOf fooHost "Foo" MethodParamInfo.name method) = byWord method := by decide

theorem forwardedFoo_reads : ReadsAs fooHost "Foo" MethodParamInfo.name wordFrontEnd () where
  declares := by decide
  refersTo := by decide
  shown := by decide
  distinct := by decide
  counts := by
    intro query n wrapper special chosen
    obtain ⟨⟨i,_⟩,resolved,placed⟩ := Option.bind_eq_some_iff.mp chosen
    obtain ⟨_,found,same⟩ := Option.map_eq_some_iff.mp resolved
    cases same
    obtain ⟨method,listed,same⟩ := Option.map_eq_some_iff.mp placed
    cases same
    obtain ⟨inside,fits,_⟩ := List.findIdx?_eq_some_iff_getElem.mp found
    have declared := foo_declared wrapper (List.mem_of_getElem? listed)
    obtain ⟨_,own⟩ := List.getElem?_eq_some_iff.mp listed
    have signature := beq_iff_eq.mp fits
    rw [List.getElem_map,own] at signature
    exact (Prod.mk.inj (declared.symm.trans signature)).2

theorem forwarding_exact_witness :
    ∃ definitions, readDefinitions forwardedFoo.replacer = some definitions ∧
      Faithful wordFrontEnd.resolve (implementation fooHost (fun _ => {}) byWord ()) (definitions.map (member wordFrontEnd))
        (wrapped fooHost ()) := by
  have selects : ∀ method ∈ wrapped fooHost (), (∀ param ∈ method.params, param.name ≠ "") ∧
      (implementation fooHost (fun _ => {}) byWord ()).chosen wordFrontEnd.resolve (some method.name)
        method.params.length = some (method,()) := by decide
  obtain ⟨definitions,read,exactly⟩ := forwarding_exact (generated_definitions false () rfl (by decide) (by decide))
    ⟨rfl,fun _ => rfl⟩ (by decide) forwardedFoo_reads (fun _ => {}) byWord
  refine ⟨definitions,read,exactly.mpr ((routes_declared foo_declared).mpr ?_)⟩
  intro query n method own meant
  have both := selects method (chosen_member meant)
  exact ⟨both.1,⟨_,rfl,both.2⟩,rfl,rfl⟩

end FlexPimpl.Forwarding
