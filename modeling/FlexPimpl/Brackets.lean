import Mathlib.Data.List.Basic

namespace Brackets

inductive Role (Kind : Type) where
  | opens (kind : Kind)
  | closes (kind : Kind)
  | plain
deriving DecidableEq, Repr

variable {Symbol Kind : Type} [DecidableEq Kind] (role : Symbol → Role Kind) (separates : Symbol → Bool)

def step (stack : List Kind) (symbol : Symbol) : Option (List Kind) :=
  match role symbol,stack with
  | .plain,_ => some stack
  | .opens kind,_ => some (kind :: stack)
  | .closes kind,top :: outer => if top = kind then some outer else none
  | .closes _,[] => none

-- Reading a text, refusing a separator that no bracket encloses.
def walk (stack : List Kind) : List Symbol → Option (List Kind)
  | [] => some stack
  | symbol :: rest =>
    if stack.isEmpty && separates symbol then none
    else (step role stack symbol).bind fun next => walk next rest

def Sealed (text : List Symbol) : Prop := walk role separates [] text = some []

instance (text : List Symbol) : Decidable (Sealed role separates text) := inferInstanceAs (Decidable (_ = _))

-- The pieces between the separators that no bracket encloses.
def cut (stack : List Kind) : List Symbol → Option (List (List Symbol))
  | [] => if stack.isEmpty then some [[]] else none
  | symbol :: rest =>
    if stack.isEmpty && separates symbol then (cut [] rest).map ([] :: ·)
    else (step role stack symbol).bind fun next => (cut next rest).map (List.modifyHead (symbol :: ·))

-- The text up to the bracket that closes a group of this kind, and what follows it.
def group (kind : Kind) (stack : List Kind) : List Symbol → Option (List Symbol × List Symbol)
  | [] => none
  | symbol :: rest =>
    if stack.isEmpty ∧ role symbol = .closes kind then some ([],rest)
    else (step role stack symbol).bind fun next => (group kind next rest).map fun read => (symbol :: read.1,read.2)

variable {role separates} {stack next after : List Kind} {text rest : List Symbol} {symbol : Symbol}

theorem walk_cons (read : walk role separates stack (symbol :: rest) = some after) :
    (stack.isEmpty && separates symbol) = false ∧
      ∃ next, step role stack symbol = some next ∧ walk role separates next rest = some after := by
  unfold walk at read
  split at read
  · cases read
  · rename_i inside
    exact ⟨Bool.eq_false_iff.mpr inside,Option.bind_eq_some_iff.mp read⟩

theorem walk_append (first second : List Symbol) :
    walk role separates stack (first ++ second) =
      (walk role separates stack first).bind fun next => walk role separates next second := by
  induction first generalizing stack with
  | nil => rfl
  | cons symbol first ih =>
    simp only [List.cons_append,walk]
    split
    · rfl
    · simp only [ih,Option.bind_assoc]

theorem sealed_nil : Sealed role separates [] := rfl

theorem sealed_plain (plain : ∀ symbol ∈ text, role symbol = .plain ∧ separates symbol = false) :
    Sealed role separates text := by
  induction text with
  | nil => exact sealed_nil
  | cons symbol text ih =>
    obtain ⟨own,apart⟩ := plain symbol (by simp)
    have tail := ih fun other member => plain other (List.mem_cons_of_mem _ member)
    simpa [Sealed,walk,step,own,apart] using tail

theorem sealed_append {first second : List Symbol} (left : Sealed role separates first)
    (right : Sealed role separates second) : Sealed role separates (first ++ second) := by
  unfold Sealed at left right ⊢
  rw [walk_append,left]
  exact right

theorem sealed_intercalate {glue : List Symbol} {texts : List (List Symbol)} (between : Sealed role separates glue)
    (fragments : ∀ text ∈ texts, Sealed role separates text) : Sealed role separates (glue.intercalate texts) := by
  induction texts with
  | nil => exact sealed_nil
  | cons first others ih =>
    have head := fragments first (by simp)
    have tail := ih fun text member => fragments text (List.mem_cons_of_mem _ member)
    cases others with
    | nil => simpa using head
    | cons second others =>
      rw [List.intercalate_cons_cons]
      exact sealed_append (sealed_append head between) tail

theorem walk_weaken {fewer : Symbol → Bool} (weaker : ∀ symbol, fewer symbol = true → separates symbol = true)
    (read : walk role separates stack text = some after) : walk role fewer stack text = some after := by
  induction text generalizing stack with
  | nil => exact read
  | cons symbol rest ih =>
    obtain ⟨inside,next,stepped,read⟩ := walk_cons read
    have passes : (stack.isEmpty && fewer symbol) = false := by
      cases empty : stack.isEmpty with
      | false => rfl
      | true =>
        cases seen : fewer symbol with
        | false => rfl
        | true => rw [empty,weaker symbol seen] at inside; cases inside
    simp only [walk,passes,stepped,Option.bind_some]
    exact ih read

theorem sealed_weaken {fewer : Symbol → Bool} (weaker : ∀ symbol, fewer symbol = true → separates symbol = true)
    (fragment : Sealed role separates text) : Sealed role fewer text := walk_weaken weaker fragment

theorem step_frame (base : List Kind) (stepped : step role stack symbol = some next) :
    step role (stack ++ base) symbol = some (next ++ base) := by
  unfold step at stepped ⊢
  split at stepped
  · cases stepped
    rename_i plain
    simp [plain]
  · cases stepped
    rename_i opening
    simp [opening]
  · rename_i kind top outer closing
    split at stepped
    · cases stepped
      rename_i same
      simp [closing,same]
    · cases stepped
  · cases stepped

-- Inside a bracket no symbol separates, whatever the separators are.
theorem walk_inside {others : Symbol → Bool} (outermost : Kind) (base : List Kind)
    (read : walk role separates stack text = some after) :
    walk role others (stack ++ outermost :: base) text = some (after ++ outermost :: base) := by
  induction text generalizing stack with
  | nil => cases read; rfl
  | cons symbol rest ih =>
    obtain ⟨_,next,stepped,read⟩ := walk_cons read
    have enclosed : ((stack ++ outermost :: base).isEmpty && others symbol) = false := by simp
    simp only [walk,enclosed,step_frame _ stepped,Option.bind_some]
    exact ih read

theorem sealed_group {others : Symbol → Bool} {kind : Kind} {first last : Symbol}
    (opening : role first = .opens kind) (closing : role last = .closes kind) (apart : others first = false)
    (inside : Sealed role separates text) : Sealed role others (first :: (text ++ [last])) := by
  have middle : walk role others [kind] text = some [kind] := walk_inside kind [] inside
  unfold Sealed
  simp only [walk,apart,Bool.and_false,step,opening,Option.bind_some,walk_append,middle]
  simp [closing]

theorem cut_walk (read : walk role separates stack text = some after) (rest : List Symbol) :
    cut role separates stack (text ++ rest) = (cut role separates after rest).map (List.modifyHead (text ++ ·)) := by
  induction text generalizing stack with
  | nil =>
    cases read
    have unchanged : List.modifyHead (fun piece : List Symbol => [] ++ piece) = id := by
      funext pieces
      cases pieces <;> rfl
    rw [unchanged,Option.map_id]
    rfl
  | cons symbol text ih =>
    obtain ⟨inside,next,stepped,read⟩ := walk_cons read
    rw [List.cons_append,cut,inside,stepped,Option.bind_some,ih read]
    cases cut role separates after rest <;> simp [Function.comp_def]

theorem cut_sealed (fragment : Sealed role separates text) : cut role separates [] text = some [text] := by
  have whole := cut_walk fragment []
  rw [List.append_nil] at whole
  rw [whole]
  simp [cut]

theorem cut_separator (fragment : Sealed role separates text) (separator : separates symbol = true)
    (rest : List Symbol) :
    cut role separates [] (text ++ symbol :: rest) = (cut role separates [] rest).map (text :: ·) := by
  rw [cut_walk fragment,cut]
  cases cut role separates [] rest <;> simp [separator]

theorem group_walk {kind : Kind} (read : walk role separates stack text = some after) (rest : List Symbol) :
    group role kind stack (text ++ rest) =
      (group role kind after rest).map fun found => (text ++ found.1,found.2) := by
  induction text generalizing stack with
  | nil => cases read; simp
  | cons symbol text ih =>
    obtain ⟨_,next,stepped,read⟩ := walk_cons read
    have goes : ¬ (stack.isEmpty = true ∧ role symbol = .closes kind) := by
      intro ends
      rcases ends with ⟨empty,closing⟩
      rw [List.isEmpty_iff.mp empty] at stepped
      simp [step,closing] at stepped
    simp only [List.cons_append,group,if_neg goes,stepped,Option.bind_some,ih read,Option.map_map]
    rfl

theorem group_sealed {kind : Kind} (inside : Sealed role separates text) (closing : role symbol = .closes kind)
    (rest : List Symbol) : group role kind [] (text ++ symbol :: rest) = some (text,rest) := by
  rw [group_walk inside]
  simp [group,closing]

-- A list printed with a separator and a filler between its members: every piece
-- but the first starts with the filler.
theorem cut_intercalate {filler first : List Symbol} {others : List (List Symbol)}
    (separator : separates symbol = true) (between : Sealed role separates filler)
    (fragments : ∀ text ∈ first :: others, Sealed role separates text) :
    cut role separates [] ((symbol :: filler).intercalate (first :: others)) =
      some (first :: others.map (filler ++ ·)) := by
  induction others generalizing first with
  | nil => simpa using cut_sealed (fragments first (by simp))
  | cons second others ih =>
    have head : Sealed role separates first := fragments first (by simp)
    have tail := ih fun text member => fragments text (List.mem_cons_of_mem _ member)
    rw [List.intercalate_cons_cons,List.append_assoc,List.cons_append,cut_separator head separator,
      cut_walk between,tail]
    rfl

theorem intercalate_ended (glue : List Symbol) (texts : List (List Symbol)) :
    glue.intercalate (texts ++ [[]]) = texts.flatMap (· ++ glue) := by
  induction texts with
  | nil => rfl
  | cons text texts ih =>
    cases texts with
    | nil => simp [List.intercalate_cons_cons]
    | cons second others =>
      rw [List.flatMap_cons,← ih]
      simp only [List.cons_append,List.intercalate_cons_cons]

section Lists
variable [DecidableEq Symbol] (role separates)

def unfill (filler : List Symbol) : List (List Symbol) → Option (List (List Symbol))
  | [] => some []
  | piece :: pieces => (piece.dropPrefix? filler).bind fun text => (unfill filler pieces).map (text :: ·)

-- The members of a list in a text; the empty text is the empty list.
def list (filler text : List Symbol) : Option (List (List Symbol)) :=
  (cut role separates [] text).bind fun
    | [] => none
    | [[]] => some []
    | first :: others => (unfill filler others).map (first :: ·)

-- The same where the separator and the filler also follow the last member.
def lines (filler text : List Symbol) : Option (List (List Symbol)) :=
  (list role separates filler text).bind fun members =>
    if members = [] then some [] else if members.getLast? = some [] then some members.dropLast else none

variable {role separates}

theorem unfill_filled (filler : List Symbol) (texts : List (List Symbol)) :
    unfill filler (texts.map (filler ++ ·)) = some texts := by
  induction texts with
  | nil => rfl
  | cons text texts ih => simp [unfill,ih,List.dropPrefix?_append_of_beq]

theorem list_intercalate {filler : List Symbol} {texts : List (List Symbol)} (separator : separates symbol = true)
    (between : Sealed role separates filler) (fragments : ∀ text ∈ texts, Sealed role separates text)
    (filled : texts ≠ [[]]) : list role separates filler ((symbol :: filler).intercalate texts) = some texts := by
  cases texts with
  | nil => rfl
  | cons first others =>
    unfold list
    rw [cut_intercalate separator between fragments,Option.bind_some]
    split
    · rename_i impossible
      cases impossible
    · rename_i alone
      cases others with
      | nil => cases alone; exact absurd rfl filled
      | cons second others => simp at alone
    · rename_i head tail _ pieces
      cases pieces
      rw [unfill_filled]
      rfl

theorem lines_flatMap {filler : List Symbol} {texts : List (List Symbol)} (separator : separates symbol = true)
    (between : Sealed role separates filler) (fragments : ∀ text ∈ texts, Sealed role separates text) :
    lines role separates filler (texts.flatMap (· ++ symbol :: filler)) = some texts := by
  unfold lines
  rw [← intercalate_ended]
  cases texts with
  | nil => rfl
  | cons first others =>
    have all : ∀ text ∈ first :: (others ++ [[]]), Sealed role separates text := by
      intro text member
      rcases List.mem_append.mp (List.cons_append ▸ member) with inside | last
      · exact fragments text inside
      · rw [List.mem_singleton.mp last]
        exact sealed_nil
    rw [List.cons_append,list_intercalate separator between all (by simp),← List.cons_append]
    simp only [Option.bind_some,List.getLast?_concat,List.dropLast_concat]
    rfl

end Lists

-- The text before the first separator that no bracket encloses.
section Prefixes
variable (role separates)

def upTo (stack : List Kind) : List Symbol → Option (List Symbol × List Symbol)
  | [] => none
  | symbol :: rest =>
    if stack.isEmpty && separates symbol then some ([],symbol :: rest)
    else (step role stack symbol).bind fun next => (upTo next rest).map fun read => (symbol :: read.1,read.2)

variable {role separates}

theorem upTo_walk (read : walk role separates stack text = some after) (rest : List Symbol) :
    upTo role separates stack (text ++ rest) =
      (upTo role separates after rest).map fun found => (text ++ found.1,found.2) := by
  induction text generalizing stack with
  | nil => cases read; simp
  | cons symbol text ih =>
    obtain ⟨inside,next,stepped,read⟩ := walk_cons read
    rw [List.cons_append,upTo,inside,stepped,Option.bind_some,ih read,Option.map_map]
    rfl

theorem upTo_sealed (fragment : Sealed role separates text) (separator : separates symbol = true) (rest : List Symbol) :
    upTo role separates [] (text ++ symbol :: rest) = some (text,symbol :: rest) := by
  rw [upTo_walk fragment,upTo,if_pos (by simp [separator])]
  simp

end Prefixes

-- Items one after the other, as long as there is text; each takes some of it.
section Items
variable {Item : Type} (readItem : List Symbol → Option (Item × List Symbol))

def items : Nat → List Symbol → Option (List Item)
  | _,[] => some []
  | 0,_ :: _ => none
  | fuel + 1,symbol :: rest => (readItem (symbol :: rest)).bind fun read => (items fuel read.2).map (read.1 :: ·)

variable {readItem} {printItem : Item → List Symbol}

theorem flatMap_length {all : List Item} (some : ∀ item ∈ all, printItem item ≠ []) :
    all.length ≤ (all.flatMap printItem).length := by
  induction all with
  | nil => simp
  | cons item others ih =>
    have tail := ih fun other member => some other (List.mem_cons_of_mem _ member)
    have own := List.length_pos_iff.mpr (some item (by simp))
    rw [List.flatMap_cons,List.length_append,List.length_cons]
    omega

theorem items_flatMap {all : List Item} {fuel : Nat} (some : ∀ item ∈ all, printItem item ≠ [])
    (reads : ∀ item ∈ all, ∀ rest, readItem (printItem item ++ rest) = .some (item,rest)) (enough : all.length ≤ fuel) :
    items readItem fuel (all.flatMap printItem) = .some all := by
  induction all generalizing fuel with
  | nil => cases fuel <;> rfl
  | cons item others ih =>
    cases fuel with
    | zero => simp at enough
    | succ fuel =>
      have tail := ih (fun other member => some other (List.mem_cons_of_mem _ member))
        (fun other member => reads other (List.mem_cons_of_mem _ member)) (Nat.le_of_succ_le_succ enough)
      have head := reads item (by simp) (others.flatMap printItem)
      rw [List.flatMap_cons]
      cases shown : printItem item with
      | nil => exact absurd shown (some item (by simp))
      | cons symbol more =>
        rw [shown,List.cons_append] at head
        rw [List.cons_append,items,head,Option.bind_some,tail]
        rfl

end Items
end Brackets
