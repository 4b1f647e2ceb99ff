import FlexPimpl.Brackets

namespace CppTokens

-- C++ text as far as declarations need it: identifiers, keywords and numbers
-- are words, `::` is one token, and any other symbol stands for itself.
inductive Token where
  | word (text : String)
  | scope
  | punct (symbol : Char)
deriving DecidableEq, Repr

inductive Pending where
  | none
  | word (text : List Char)
  | colon
deriving DecidableEq, Repr

def isWordChar (c : Char) : Bool := c.isAlphanum || c == '_'
def isBlank (c : Char) : Bool := c == ' ' || c == '\n' || c == '\t'

def flush : Pending → List Token
  | .none => []
  | .word text => [.word (String.ofList text)]
  | .colon => [.punct ':']

def feed (pending : Pending) (c : Char) : List Token × Pending :=
  if isWordChar c then
    match pending with
    | .none => ([],.word [c])
    | .word text => ([],.word (text ++ [c]))
    | .colon => ([.punct ':'],.word [c])
  else if c = ':' then
    match pending with
    | .colon => ([.scope],.none)
    | pending => (flush pending,.colon)
  else if isBlank c then (flush pending,.none)
  else (flush pending ++ [.punct c],.none)

def scan (pending : Pending) : List Char → List Token × Pending
  | [] => ([],pending)
  | c :: rest =>
    let first := feed pending c
    let others := scan first.2 rest
    (first.1 ++ others.1,others.2)

def lexFrom (pending : Pending) (text : List Char) : List Token := (scan pending text).1 ++ flush (scan pending text).2

def lex (text : String) : List Token := lexFrom .none text.toList

theorem scan_append (pending : Pending) (first second : List Char) :
    scan pending (first ++ second) =
      ((scan pending first).1 ++ (scan (scan pending first).2 second).1,(scan (scan pending first).2 second).2) := by
  induction first generalizing pending with
  | nil => simp [scan]
  | cons c first ih => simp [scan,ih]

theorem lexFrom_append (pending : Pending) (first second : List Char) :
    lexFrom pending (first ++ second) = (scan pending first).1 ++ lexFrom (scan pending first).2 second := by
  simp [lexFrom,scan_append]

-- A symbol that belongs to no longer token ends the one before it.
theorem lex_break {c : Char} (ends : isWordChar c = false) (other : c ≠ ':') (first second : List Char) :
    lexFrom .none (first ++ c :: second) =
      lexFrom .none first ++ (if isBlank c then [] else [.punct c]) ++ lexFrom .none second := by
  rw [lexFrom_append]
  by_cases blank : isBlank c = true <;> simp [lexFrom,scan,feed,ends,other,blank]

theorem lex_blank (first second : String) : lex (first ++ " " ++ second) = lex first ++ lex second := by
  unfold lex
  rw [String.append_assoc,String.toList_append,String.toList_append]
  simpa [isBlank] using lex_break (c := ' ') rfl (by decide) first.toList second.toList

theorem lex_open (first second : String) : lex (first ++ "(" ++ second) = lex first ++ .punct '(' :: lex second := by
  unfold lex
  rw [String.append_assoc,String.toList_append,String.toList_append]
  simpa [isBlank] using lex_break (c := '(') rfl (by decide) first.toList second.toList

theorem lex_close (first second : String) : lex (first ++ ">" ++ second) = lex (first ++ ">") ++ lex second := by
  have whole := lex_break (c := '>') rfl (by decide) first.toList second.toList
  have front := lex_break (c := '>') rfl (by decide) first.toList []
  unfold lex
  simp only [String.toList_append,List.append_assoc]
  have angle : ">".toList = ['>'] := rfl
  have empty : lexFrom .none [] = [] := rfl
  rw [angle,List.singleton_append,whole,front,empty,List.append_nil]

-- `::` is read as one token unless a colon stands directly before it.
theorem lex_scope {first : String} (apart : (lex first).getLast? ≠ some (.punct ':')) (second : String) :
    lex (first ++ "::" ++ second) = lex first ++ .scope :: lex second := by
  have open_colon : (scan .none first.toList).2 ≠ .colon := by
    intro colon
    apply apart
    simp [lex,lexFrom,colon,flush]
  have split : (first ++ "::" ++ second).toList = first.toList ++ ':' :: ':' :: second.toList := by
    simp [String.toList_append]
  unfold lex
  rw [split,lexFrom_append]
  cases state : (scan .none first.toList).2 with
  | colon => exact absurd state open_colon
  | none | word text => simp [lexFrom,scan,feed,isWordChar,flush,state]

open Brackets

inductive Bracket where
  | round | angle | square | curly
deriving DecidableEq, Repr

def role : Token → Role Bracket
  | .punct '(' => .opens .round
  | .punct ')' => .closes .round
  | .punct '<' => .opens .angle
  | .punct '>' => .closes .angle
  | .punct '[' => .opens .square
  | .punct ']' => .closes .square
  | .punct '\x7b' => .opens .curly
  | .punct '\x7d' => .closes .curly
  | _ => .plain

def specifiers : List String :=
  ["static","inline","constexpr","consteval","virtual","explicit","friend","extern","typename","class","struct",
   "union","enum","const","volatile"]
def fundamentals : List String :=
  ["void","bool","char","char8_t","char16_t","char32_t","wchar_t","short","int","long","float","double","signed",
   "unsigned","auto"]

def isSpecifier : Token → Bool
  | .word text => specifiers.contains text
  | _ => false

def isFundamental : Token → Bool
  | .word text => fundamentals.contains text
  | _ => false

def isName : Token → Bool
  | .word text => !specifiers.contains text && !fundamentals.contains text
  | _ => false

def isSuffix : Token → Bool
  | .word text => text == "const" || text == "volatile"
  | .punct c => c == '*' || c == '&'
  | .scope => false

structure Component where
  name : String
  arguments : Option (List Token)
deriving DecidableEq, Repr

structure QualifiedName where
  isGlobal : Bool
  components : List Component
deriving DecidableEq, Repr

inductive Base where
  | fundamental (words : List Token)
  | named (name : QualifiedName)
deriving DecidableEq, Repr

-- Specifiers, the type they belong to, and the pointers and references to it.
structure TypeText where
  specifiers : List Token
  base : Base
  suffix : List Token
deriving DecidableEq, Repr

def Component.tokens (component : Component) : List Token :=
  .word component.name :: match component.arguments with
    | none => []
    | some arguments => .punct '<' :: (arguments ++ [.punct '>'])

def nested : List Component → List Token
  | [] => []
  | [component] => component.tokens
  | component :: next :: rest => component.tokens ++ .scope :: nested (next :: rest)

def QualifiedName.tokens (name : QualifiedName) : List Token :=
  if name.isGlobal then .scope :: nested name.components else nested name.components

def Base.tokens : Base → List Token
  | .fundamental words => words
  | .named name => name.tokens

def TypeText.tokens (type : TypeText) : List Token := type.specifiers ++ type.base.tokens ++ type.suffix

structure Component.WellFormed (component : Component) : Prop where
  name : isName (.word component.name) = true
  arguments : ∀ arguments ∈ component.arguments, Sealed role (fun _ => false) arguments

structure QualifiedName.WellFormed (name : QualifiedName) : Prop where
  some : name.components ≠ []
  components : ∀ component ∈ name.components, component.WellFormed

def Base.WellFormed : Base → Prop
  | .fundamental words => words ≠ [] ∧ ∀ token ∈ words, isFundamental token = true
  | .named name => name.WellFormed

structure TypeText.WellFormed (type : TypeText) : Prop where
  specifiers : ∀ token ∈ type.specifiers, isSpecifier token = true
  base : type.base.WellFormed
  suffix : ∀ token ∈ type.suffix, isSuffix token = true

instance (component : Component) : Decidable component.WellFormed :=
  decidable_of_iff (isName (.word component.name) = true ∧
      ∀ arguments ∈ component.arguments, Sealed role (fun _ => false) arguments)
    ⟨fun both => ⟨both.1,both.2⟩,fun formed => ⟨formed.name,formed.arguments⟩⟩

instance (name : QualifiedName) : Decidable name.WellFormed :=
  decidable_of_iff (name.components ≠ [] ∧ ∀ component ∈ name.components, component.WellFormed)
    ⟨fun both => ⟨both.1,both.2⟩,fun formed => ⟨formed.some,formed.components⟩⟩

instance (base : Base) : Decidable base.WellFormed :=
  match base with
  | .fundamental words => inferInstanceAs (Decidable (words ≠ [] ∧ ∀ token ∈ words, isFundamental token = true))
  | .named name => inferInstanceAs (Decidable name.WellFormed)

instance (type : TypeText) : Decidable type.WellFormed :=
  decidable_of_iff ((∀ token ∈ type.specifiers, isSpecifier token = true) ∧ type.base.WellFormed ∧
      ∀ token ∈ type.suffix, isSuffix token = true)
    ⟨fun all => ⟨all.1,all.2.1,all.2.2⟩,fun formed => ⟨formed.specifiers,formed.base,formed.suffix⟩⟩

def readComponent : List Token → Option (Component × List Token)
  | .word name :: .punct '<' :: rest =>
    if isName (.word name) then (group role .angle [] rest).map fun read => (⟨name,some read.1⟩,read.2) else none
  | .word name :: rest => if isName (.word name) then some (⟨name,none⟩,rest) else none
  | _ => none

def readNested : Nat → List Token → Option (List Component × List Token)
  | 0,_ => none
  | fuel + 1,tokens => (readComponent tokens).bind fun first =>
    match first.2 with
    | .scope :: rest => (readNested fuel rest).map fun others => (first.1 :: others.1,others.2)
    | rest => some ([first.1],rest)

def readName (tokens : List Token) : Option (QualifiedName × List Token) :=
  match tokens with
  | .scope :: rest => (readNested rest.length rest).map fun read => (⟨true,read.1⟩,read.2)
  | tokens => (readNested tokens.length tokens).map fun read => (⟨false,read.1⟩,read.2)

def readBase (tokens : List Token) : Option (Base × List Token) :=
  match tokens.takeWhile isFundamental with
  | [] => (readName tokens).map fun read => (.named read.1,read.2)
  | first :: others => some (.fundamental (first :: others),tokens.dropWhile isFundamental)

def readType (tokens : List Token) : Option (TypeText × List Token) :=
  (readBase (tokens.dropWhile isSpecifier)).map fun read =>
    (⟨tokens.takeWhile isSpecifier,read.1,read.2.takeWhile isSuffix⟩,read.2.dropWhile isSuffix)

-- A function header: a type, the declared name, and the parameter list.
def readHeader (tokens : List Token) : Option (TypeText × QualifiedName) :=
  (readType tokens).bind fun type => (readName type.2).bind fun name =>
    if name.2.head? = some (.punct '(') then some (type.1,name.1) else none

theorem readComponent_tokens {component : Component} {rest : List Token} (formed : component.WellFormed)
    (apart : rest.head? ≠ some (.punct '<')) : readComponent (component.tokens ++ rest) = some (component,rest) := by
  obtain ⟨name,arguments⟩ := component
  cases arguments with
  | none =>
    cases rest with
    | nil => simp [Component.tokens,readComponent,formed.name]
    | cons token rest =>
      unfold Component.tokens readComponent
      dsimp only [List.cons_append,List.nil_append]
      split
      · rename_i equal
        cases equal
        exact absurd rfl apart
      · rename_i equal
        cases equal
        rw [if_pos formed.name]
      · rename_i other
        exact absurd rfl (other name _)
  | some arguments =>
    have inside := group_sealed (formed.arguments arguments rfl) (rfl : role (.punct '>') = .closes .angle) rest
    simp [Component.tokens,readComponent,formed.name,inside]

theorem nested_append {first second : List Component} (left : first ≠ []) (right : second ≠ []) :
    nested (first ++ second) = nested first ++ .scope :: nested second := by
  induction first with
  | nil => exact absurd rfl left
  | cons component others ih =>
    cases others with
    | nil =>
      cases second with
      | nil => exact absurd rfl right
      | cons next rest => rfl
    | cons next others =>
      have tail := ih (by simp)
      simp only [List.cons_append,nested] at tail ⊢
      rw [tail]
      simp

theorem nested_length (components : List Component) : components.length ≤ (nested components).length := by
  induction components with
  | nil => simp
  | cons component others ih =>
    have own : 1 ≤ component.tokens.length := by simp [Component.tokens]
    cases others with
    | nil => simpa [nested] using own
    | cons next others =>
      simp only [nested,List.length_cons,List.length_append] at ih ⊢
      omega

theorem readNested_tokens {components : List Component} {rest : List Token} {fuel : Nat} (some : components ≠ [])
    (formed : ∀ component ∈ components, component.WellFormed) (enough : components.length ≤ fuel)
    (plain : rest.head? ≠ .some (.punct '<')) (ends : rest.head? ≠ .some .scope) :
    readNested fuel (nested components ++ rest) = .some (components,rest) := by
  induction components generalizing fuel with
  | nil => exact absurd rfl some
  | cons component others ih =>
    have head := formed component (by simp)
    cases fuel with
    | zero => simp at enough
    | succ fuel =>
      cases others with
      | nil =>
        rw [nested,readNested,readComponent_tokens head plain,Option.bind_some]
        dsimp only
        split
        · exact absurd rfl ends
        · rfl
      | cons next others =>
        have tail := ih (by simp) (fun other member => formed other (List.mem_cons_of_mem _ member))
          (Nat.le_of_succ_le_succ enough)
        rw [nested,List.append_assoc,List.cons_append,readNested,readComponent_tokens head (by simp),Option.bind_some]
        dsimp only
        rw [tail]
        rfl

-- No token at the front of `rest` would be read as part of a name before it.
def EndsName (rest : List Token) : Prop := rest.head? ≠ some (.punct '<') ∧ rest.head? ≠ some .scope

theorem nested_head {components : List Component} (some : components ≠ [])
    (formed : ∀ component ∈ components, component.WellFormed) (rest : List Token) :
    ∃ token, (nested components ++ rest).head? = .some token ∧ isName token = true := by
  cases components with
  | nil => exact absurd rfl some
  | cons component others =>
    refine ⟨.word component.name,?_,(formed component (by simp)).name⟩
    cases others <;> simp [nested,Component.tokens]

theorem readName_tokens {name : QualifiedName} {rest : List Token} (formed : name.WellFormed) (ends : EndsName rest) :
    readName (name.tokens ++ rest) = some (name,rest) := by
  obtain ⟨isGlobal,components⟩ := name
  have enough : components.length ≤ (nested components ++ rest).length := by
    have own := nested_length components
    rw [List.length_append]
    omega
  have read := readNested_tokens formed.some formed.components enough ends.1 ends.2
  cases isGlobal with
  | true =>
    simp only [QualifiedName.tokens,if_true,List.cons_append,readName]
    rw [read]
    rfl
  | false =>
    obtain ⟨token,head,named⟩ := nested_head formed.some formed.components rest
    simp only [QualifiedName.tokens,Bool.false_eq_true,if_false]
    unfold readName
    split
    · rename_i equal
      rw [equal] at head
      cases head
      cases named
    · rw [read]
      rfl

theorem name_head {name : QualifiedName} (formed : name.WellFormed) (rest : List Token) :
    ∃ token, (name.tokens ++ rest).head? = some token ∧
      (name.isGlobal = true ∧ token = .scope ∨ name.isGlobal = false ∧ isName token = true) := by
  unfold QualifiedName.tokens
  cases isGlobal : name.isGlobal with
  | true => exact ⟨.scope,rfl,Or.inl ⟨rfl,rfl⟩⟩
  | false =>
    obtain ⟨token,head,named⟩ := nested_head formed.some formed.components rest
    exact ⟨token,head,Or.inr ⟨rfl,named⟩⟩

theorem name_other {token : Token} (named : isName token = true) :
    isSpecifier token = false ∧ isFundamental token = false ∧ isSuffix token = false := by
  cases token with
  | word text =>
    simp only [isName,Bool.and_eq_true,Bool.not_eq_true'] at named
    refine ⟨named.1,named.2,?_⟩
    simp only [isSuffix,Bool.or_eq_false_iff,beq_eq_false_iff_ne]
    constructor
    all_goals intro cv
    all_goals rw [cv] at named
    all_goals exact absurd named.1 (by decide)
  | scope | punct symbol => cases named

theorem fundamental_other {token : Token} (fundamental : isFundamental token = true) : isSpecifier token = false := by
  have disjoint : ∀ text ∈ fundamentals, text ∉ specifiers := by decide
  cases token with
  | word text => simpa [isSpecifier] using disjoint text (by simpa [isFundamental] using fundamental)
  | scope | punct symbol => cases fundamental

theorem suffix_other {token : Token} (suffix : isSuffix token = true) :
    isFundamental token = false ∧ token ≠ .scope ∧ token ≠ .punct '<' := by
  cases token with
  | word text =>
    have known : text = "const" ∨ text = "volatile" := by simpa [isSuffix] using suffix
    rcases known with rfl | rfl <;> decide
  | scope => cases suffix
  | punct symbol =>
    refine ⟨rfl,by simp,?_⟩
    intro angle
    rw [angle] at suffix
    cases suffix

theorem takeWhile_stops {first rest : List Token} {kind : Token → Bool} (all : ∀ token ∈ first, kind token = true)
    (stops : ∀ token, rest.head? = some token → kind token = false) :
    (first ++ rest).takeWhile kind = first ∧ (first ++ rest).dropWhile kind = rest := by
  rw [List.takeWhile_append_of_pos all,List.dropWhile_append_of_pos all]
  cases rest with
  | nil => simp
  | cons token rest => simp [stops token rfl]

-- A type is read as far as its own tokens when the next one continues neither
-- its suffix nor, if there is no suffix, its base.
def Base.Ends : Base → Token → Prop
  | .fundamental _,token => isFundamental token = false
  | .named _,token => token ≠ .scope ∧ token ≠ .punct '<'

def EndsType (type : TypeText) (rest : List Token) : Prop :=
  ∀ token, rest.head? = some token → isSuffix token = false ∧ (type.suffix = [] → type.base.Ends token)

theorem readBase_tokens {base : Base} {rest : List Token} (formed : base.WellFormed)
    (ends : ∀ token, rest.head? = some token → base.Ends token) : readBase (base.tokens ++ rest) = some (base,rest) := by
  cases base with
  | fundamental words =>
    obtain ⟨taken,left⟩ := takeWhile_stops formed.2 ends
    unfold readBase Base.tokens
    dsimp only
    rw [taken,left]
    cases words with
    | nil => exact absurd rfl formed.1
    | cons first others => rfl
  | named name =>
    obtain ⟨token,head,kind⟩ := name_head formed rest
    have other : isFundamental token = false := by
      rcases kind with ⟨_,rfl⟩ | ⟨_,named⟩
      · rfl
      · exact (name_other named).2.1
    have apart : EndsName rest :=
      ⟨fun angle => (ends _ angle).2 rfl,fun scope => (ends _ scope).1 rfl⟩
    have none : (name.tokens ++ rest).takeWhile isFundamental = [] := by
      have stops : ∀ own, (name.tokens ++ rest).head? = some own → isFundamental own = false := by
        intro own same
        rw [head] at same
        cases same
        exact other
      have front : ∀ own ∈ ([] : List Token), isFundamental own = true := by simp
      exact (takeWhile_stops front stops).1
    unfold readBase Base.tokens
    dsimp only
    rw [none,readName_tokens formed apart]
    rfl

theorem base_head {base : Base} (formed : base.WellFormed) (rest : List Token) :
    ∃ token, (base.tokens ++ rest).head? = some token ∧ isSpecifier token = false := by
  cases base with
  | fundamental words =>
    cases words with
    | nil => exact absurd rfl formed.1
    | cons first others => exact ⟨first,rfl,fundamental_other (formed.2 first (by simp))⟩
  | named name =>
    obtain ⟨token,head,kind⟩ := name_head formed rest
    refine ⟨token,head,?_⟩
    rcases kind with ⟨_,rfl⟩ | ⟨_,named⟩
    · rfl
    · exact (name_other named).1

theorem readType_tokens {type : TypeText} {rest : List Token} (formed : type.WellFormed) (ends : EndsType type rest) :
    readType (type.tokens ++ rest) = some (type,rest) := by
  have split : type.tokens ++ rest = type.specifiers ++ (type.base.tokens ++ (type.suffix ++ rest)) := by
    simp [TypeText.tokens]
  obtain ⟨front,head,plain⟩ := base_head formed.base (type.suffix ++ rest)
  have stops : ∀ token, (type.base.tokens ++ (type.suffix ++ rest)).head? = some token → isSpecifier token = false := by
    intro token same
    rw [head] at same
    cases same
    exact plain
  obtain ⟨specifiers,afterSpecifiers⟩ := takeWhile_stops formed.specifiers stops
  obtain ⟨suffix,afterSuffix⟩ := takeWhile_stops formed.suffix fun token same => (ends token same).1
  have base : readBase (type.base.tokens ++ (type.suffix ++ rest)) = some (type.base,type.suffix ++ rest) := by
    apply readBase_tokens formed.base
    intro token same
    cases own : type.suffix with
    | nil =>
      rw [own] at same
      exact (ends token same).2 own
    | cons first others =>
      rw [own] at same
      cases same
      have other := suffix_other (formed.suffix token (by simp [own]))
      cases type.base with
      | fundamental words => exact other.1
      | named name => exact other.2
  unfold readType
  rw [split,specifiers,afterSpecifiers,base]
  simp [suffix,afterSuffix]

theorem component_last (component : Component) : component.tokens.getLast? ≠ some (.punct ':') := by
  obtain ⟨name,arguments⟩ := component
  cases arguments with
  | none => simp [Component.tokens]
  | some arguments =>
    have shape : (⟨name,some arguments⟩ : Component).tokens = (.word name :: .punct '<' :: arguments) ++ [.punct '>'] := rfl
    rw [shape,List.getLast?_concat]
    simp

theorem nested_last (components : List Component) : (nested components).getLast? ≠ some (.punct ':') := by
  induction components with
  | nil => simp [nested]
  | cons component others ih =>
    cases others with
    | nil => exact component_last component
    | cons next others =>
      rw [nested,List.getLast?_append]
      cases last : (nested (next :: others)).getLast? with
      | none => simp [List.getLast?_cons,last]
      | some token =>
        rw [last] at ih
        simpa [List.getLast?_cons,last] using ih

theorem name_last (name : QualifiedName) : name.tokens.getLast? ≠ some (.punct ':') := by
  have last := nested_last name.components
  unfold QualifiedName.tokens
  split
  · rw [List.getLast?_cons]
    cases found : (nested name.components).getLast? with
    | none => simp
    | some token =>
      rw [found] at last
      simpa using last
  · exact last

-- A type that ends in a name, before a name that starts with `::`.
def Glues (type : TypeText) (name : QualifiedName) : Prop :=
  name.isGlobal = true ∧ type.suffix = [] ∧ ∃ own, type.base = .named own

theorem readHeader_tokens {type : TypeText} {name : QualifiedName} (formed : type.WellFormed)
    (named : name.WellFormed) (apart : ¬ Glues type name) (rest : List Token) :
    readHeader (type.tokens ++ (name.tokens ++ .punct '(' :: rest)) = some (type,name) := by
  have ends : EndsType type (name.tokens ++ .punct '(' :: rest) := by
    intro token same
    obtain ⟨front,head,kind⟩ := name_head named (.punct '(' :: rest)
    rw [head] at same
    cases same
    rcases kind with ⟨isGlobal,rfl⟩ | ⟨_,own⟩
    · refine ⟨rfl,?_⟩
      intro bare
      cases base : type.base with
      | fundamental words => rfl
      | named own => exact absurd ⟨isGlobal,bare,own,base⟩ apart
    · obtain ⟨_,fundamental,suffix⟩ := name_other own
      refine ⟨suffix,?_⟩
      intro _
      cases type.base with
      | fundamental words => exact fundamental
      | named _ =>
        constructor
        all_goals intro same
        all_goals rw [same] at own
        all_goals cases own
  have read : readName (name.tokens ++ .punct '(' :: rest) = some (name,.punct '(' :: rest) :=
    readName_tokens named ⟨by simp,by simp⟩
  unfold readHeader
  rw [readType_tokens formed ends,Option.bind_some,read]
  rfl

-- The whole of such a name is read as part of the type, and none is left to declare.
theorem readHeader_glued {type : TypeText} {name : QualifiedName} (formed : type.WellFormed) (named : name.WellFormed)
    (glued : Glues type name) (rest : List Token) :
    readHeader (type.tokens ++ (name.tokens ++ .punct '(' :: rest)) = none := by
  obtain ⟨isGlobal,bare,own,base⟩ := glued
  have ownFormed : own.WellFormed := by
    have formedBase := formed.base
    rw [base] at formedBase
    exact formedBase
  let whole : TypeText := ⟨type.specifiers,.named ⟨own.isGlobal,own.components ++ name.components⟩,[]⟩
  have wholeFormed : whole.WellFormed := by
    refine ⟨formed.specifiers,⟨by simp [ownFormed.some],?_⟩,by simp [whole]⟩
    intro component member
    rcases List.mem_append.mp member with first | second
    · exact ownFormed.components component first
    · exact named.components component second
  have same : type.tokens ++ (name.tokens ++ .punct '(' :: rest) = whole.tokens ++ .punct '(' :: rest := by
    have parts := nested_append ownFormed.some named.some
    cases front : own.isGlobal <;>
      simp [whole,TypeText.tokens,base,bare,Base.tokens,QualifiedName.tokens,isGlobal,front,parts]
  have ends : EndsType whole (.punct '(' :: rest) := by
    intro token first
    cases first
    exact ⟨rfl,fun _ => ⟨by simp,by simp⟩⟩
  unfold readHeader
  rw [same,readType_tokens wholeFormed ends]
  rfl

example : readHeader (lex "std::string ::Foo::name()") = none := by decide

end CppTokens
