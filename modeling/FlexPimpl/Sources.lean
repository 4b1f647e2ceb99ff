import FlexPimpl.Entries
import FlexPimpl.Isolation
import FlexPimpl.Order
import Mathlib.Data.List.Nodup

namespace Regions

-- A text in parts, some of them marked. A replacement gives a new text to the
-- parts of one mark.
structure Part (Mark : Type) where
  mark : Option Mark
  text : String
deriving DecidableEq, Repr

variable {Mark : Type}

def contents (parts : List (Part Mark)) : String := String.join (parts.map Part.text)

def expand (table : Mark → Option String) (parts : List (Part Mark)) : List (Part Mark) :=
  parts.map fun part => {part with text := (part.mark.bind table).getD part.text}

section Replacements
variable [DecidableEq Mark]

def replace (parts : List (Part Mark)) (edit : Mark × String) : List (Part Mark) :=
  parts.map fun part => if part.mark = some edit.1 then {part with text := edit.2} else part

def replaceAll (edits : List (Mark × String)) (parts : List (Part Mark)) : List (Part Mark) := edits.foldl replace parts

-- One replacement after the other leaves the latest text of every mark.
theorem replaceAll_expand (edits : List (Mark × String)) (parts : List (Part Mark)) :
    replaceAll edits parts = expand (fun mark => edits.reverse.lookup mark) parts := by
  induction edits using List.reverseRecOn with
  | nil => simp [replaceAll,expand]
  | append_singleton earlier edit ih =>
    obtain ⟨edited,next⟩ := edit
    have last : replaceAll (earlier ++ [(edited,next)]) parts = replace (replaceAll earlier parts) (edited,next) := by
      simp [replaceAll]
    rw [last,ih]
    unfold replace expand
    rw [List.map_map]
    apply List.map_congr_left
    intro part _
    obtain ⟨mark,text⟩ := part
    cases mark with
    | none => simp
    | some mark =>
      by_cases same : mark = edited
      · simp [same]
      · have other : (mark == edited) = false := by simpa using same
        simp [same,List.lookup_cons,other]

end Replacements
end Regions

namespace FlexPimpl.Sources
open Settings CodeGenerator Tooling Steps History Entries

variable {Record : Type} {host : Host Record} {dchecks : Bool} {s next : State Record}
  {annotations : List (Invocation Record)} {rows : List (Invocation Record × Emission)}
  {invocation : Invocation Record} {emission : Emission}

theorem completes_last (path : Completes host dchecks State.start (rows ++ [(invocation,emission)]) s) :
    ∃ middle, Completes host dchecks State.start rows middle ∧
      invoke host dchecks invocation middle = .completed emission s := by
  unfold Completes at path
  rw [List.map_append,List.map_singleton] at path
  obtain ⟨middle,prior,answered,rfl⟩ := runs_snoc.mp path
  refine ⟨middle,prior,?_⟩
  cases outcome : invoke host dchecks invocation middle with
  | failed failure next => simp [outcome,Outcome.result] at answered
  | completed written next =>
    simp only [outcome,Outcome.result,Except.ok.injEq] at answered
    rw [answered]
    rfl

-- The key under which an annotation has its class stored.
def reflectedKey (host : Host Record) (dchecks : Bool) (invocation : Invocation Record) : Option String :=
  if isReflection invocation then
    (resolve host dchecks invocation.options.node).toOption.map fun found => found.1.implParameterQualType
  else none

-- A reflection before the annotation that stores a class with methods under the
-- key its injection looks up.
def Provided (host : Host Record) (dchecks : Bool) (earlier : List (Invocation Record)) (key : String) : Prop :=
  ∃ reflection ∈ earlier, isReflection reflection = true ∧ ∃ settings record,
    resolve host dchecks reflection.options.node = .ok (settings,record) ∧ settings.implParameterQualType = key ∧
      (cleaned (host.ReflectClass record)).methods ≠ []

structure WellOrdered (host : Host Record) (dchecks : Bool) (annotations : List (Invocation Record)) : Prop where
  resolves : ∀ invocation ∈ annotations, ∃ settings record,
    resolve host dchecks invocation.options.node = .ok (settings,record)
  reflects : ∀ invocation ∈ annotations, isReflection invocation = true → ∀ settings record,
    resolve host dchecks invocation.options.node = .ok (settings,record) → (host.ReflectClass record).methods ≠ []
  once : (annotations.filterMap (reflectedKey host dchecks)).Nodup
  injects : ∀ earlier invocation later, annotations = earlier ++ invocation :: later → isReflection invocation = false →
    ∀ settings record, resolve host dchecks invocation.options.node = .ok (settings,record) →
      ArgsAccepted host dchecks invocation ∧ Provided host dchecks earlier settings.implParameterQualType

def Next (host : Host Record) (dchecks : Bool) (annotations : List (Invocation Record))
    (invocation : Invocation Record) : Prop :=
  ∃ settings record, resolve host dchecks invocation.options.node = .ok (settings,record) ∧
    if isReflection invocation then
      (host.ReflectClass record).methods ≠ [] ∧
        settings.implParameterQualType ∉ annotations.filterMap (reflectedKey host dchecks)
    else ArgsAccepted host dchecks invocation ∧ Provided host dchecks annotations settings.implParameterQualType

theorem reflectedKey_resolved {settings : ReflectForPimplSettings Record} {record : Record}
    (resolved : resolve host dchecks invocation.options.node = .ok (settings,record)) :
    reflectedKey host dchecks invocation =
      if isReflection invocation then some settings.implParameterQualType else none := by
  simp [reflectedKey,resolved,Except.toOption]

theorem reflectedKey_some {key : String} : reflectedKey host dchecks invocation = some key ↔
    isReflection invocation = true ∧ ∃ settings record,
      resolve host dchecks invocation.options.node = .ok (settings,record) ∧ settings.implParameterQualType = key := by
  unfold reflectedKey
  by_cases reflection : isReflection invocation = true
  · cases resolve host dchecks invocation.options.node with
    | error failure => simp [reflection,Except.toOption]
    | ok found =>
      obtain ⟨settings,record⟩ := found
      simp [reflection,Except.toOption]
  · simp [reflection]

theorem wellOrdered_nil : WellOrdered host dchecks [] := by
  refine ⟨by simp,by simp,by simp,?_⟩
  intro earlier invocation later split
  simp at split

theorem wellOrdered_snoc : WellOrdered host dchecks (annotations ++ [invocation]) ↔
    WellOrdered host dchecks annotations ∧ Next host dchecks annotations invocation := by
  constructor
  · intro ordered
    obtain ⟨settings,record,resolved⟩ := ordered.resolves invocation (by simp)
    have once := ordered.once
    rw [List.filterMap_append,List.nodup_append] at once
    refine ⟨⟨?_,?_,once.1,?_⟩,settings,record,resolved,?_⟩
    · exact fun old member => ordered.resolves old (List.mem_append_left _ member)
    · exact fun old member => ordered.reflects old (List.mem_append_left _ member)
    · intro earlier old later split
      exact ordered.injects earlier old (later ++ [invocation]) (by simp [split])
    · by_cases reflection : isReflection invocation = true
      · rw [if_pos reflection]
        refine ⟨ordered.reflects invocation (by simp) reflection settings record resolved,?_⟩
        intro again
        have own : reflectedKey host dchecks invocation = some settings.implParameterQualType := by
          rw [reflectedKey_resolved resolved,if_pos reflection]
        exact once.2.2 _ again _ (by simp [own]) rfl
      · rw [if_neg reflection]
        exact ordered.injects annotations invocation [] rfl (Bool.eq_false_iff.mpr reflection) settings record resolved
  · intro both
    rcases both with ⟨ordered,settings,record,resolved,own⟩
    have unique : ∀ found again, resolve host dchecks invocation.options.node = .ok (found,again) →
        found = settings ∧ again = record := by
      intro found again same
      rw [resolved] at same
      cases same
      exact ⟨rfl,rfl⟩
    refine ⟨?_,?_,?_,?_⟩
    · intro old member
      rcases List.mem_append.mp member with inside | last
      · exact ordered.resolves old inside
      · rw [List.mem_singleton.mp last]
        exact ⟨settings,record,resolved⟩
    · intro old member reflection found again same
      rcases List.mem_append.mp member with inside | last
      · exact ordered.reflects old inside reflection found again same
      · cases List.mem_singleton.mp last
        rw [if_pos reflection] at own
        rw [(unique found again same).2]
        exact own.1
    · rw [List.filterMap_append,List.nodup_append]
      refine ⟨ordered.once,?_,?_⟩
      · cases key : reflectedKey host dchecks invocation <;> simp [key]
      · intro key member again last equal
        subst equal
        by_cases reflection : isReflection invocation = true
        · rw [if_pos reflection] at own
          have same : key = settings.implParameterQualType := by
            simpa [reflectedKey_resolved resolved,reflection] using last
          exact own.2 (same ▸ member)
        · simp [reflectedKey_resolved resolved,reflection] at last
    · intro earlier old later split injector found again same
      rcases Machines.place_snoc split with ⟨_,rfl,rfl⟩ | ⟨others,_,before⟩
      · rw [if_neg (Bool.eq_false_iff.mp injector)] at own
        rw [(unique found again same).1]
        exact own
      · exact ordered.injects earlier old others before injector found again same

theorem reflectedAs_exact {key : String} {record : Record} :
    ReflectedAs host dchecks (invocation,.ok emission) key record ↔ isReflection invocation = true ∧
      ∃ settings, resolve host dchecks invocation.options.node = .ok (settings,record) ∧
        settings.implParameterQualType = key := by
  constructor
  · intro reflected
    exact ⟨by simpa [isReflection] using reflected.rule,reflected.resolved⟩
  · intro found
    rcases found with ⟨reflection,resolved⟩
    exact ⟨by simpa [isReflection] using reflection,⟨emission,rfl⟩,resolved⟩

theorem view_free (path : Completes host dchecks State.start rows s) (key : String) :
    s.view key = none ↔ key ∉ (rows.map Prod.fst).filterMap (reflectedKey host dchecks) := by
  constructor
  · intro free member
    obtain ⟨invocation,inside,named⟩ := List.mem_filterMap.mp member
    obtain ⟨row,atRow,rfl⟩ := List.mem_map.mp inside
    obtain ⟨reflection,settings,record,resolved,stored⟩ := reflectedKey_some.mp named
    have held := (view_completed path key _).mpr
      ⟨row,atRow,record,reflectedAs_exact.mpr ⟨reflection,settings,resolved,stored⟩,rfl⟩
    rw [free] at held
    cases held
  · intro unnamed
    cases held : s.view key with
    | none => rfl
    | some info =>
      obtain ⟨row,atRow,record,reflected,_⟩ := (view_completed path key info).mp held
      obtain ⟨reflection,settings,resolved,stored⟩ := reflectedAs_exact.mp reflected
      have named := reflectedKey_some.mpr ⟨reflection,settings,record,resolved,stored⟩
      exact absurd (List.mem_filterMap.mpr ⟨row.1,List.mem_map.mpr ⟨row,atRow,rfl⟩,named⟩) unnamed

theorem view_provided (path : Completes host dchecks State.start rows s) (key : String) :
    Provided host dchecks (rows.map Prod.fst) key ↔ ∃ info, s.view key = some info ∧ info.methods ≠ [] := by
  constructor
  · intro provided
    obtain ⟨invocation,inside,reflection,settings,record,resolved,stored,methods⟩ := provided
    obtain ⟨row,atRow,rfl⟩ := List.mem_map.mp inside
    exact ⟨_,(view_completed path key _).mpr
      ⟨row,atRow,record,reflectedAs_exact.mpr ⟨reflection,settings,resolved,stored⟩,rfl⟩,methods⟩
  · intro found
    obtain ⟨info,held,methods⟩ := found
    obtain ⟨row,atRow,record,reflected,rfl⟩ := (view_completed path key info).mp held
    obtain ⟨reflection,settings,resolved,stored⟩ := reflectedAs_exact.mp reflected
    exact ⟨row.1,List.mem_map.mpr ⟨row,atRow,rfl⟩,reflection,settings,record,resolved,stored,methods⟩

theorem injector_accepted (injector : isReflection invocation = false)
    (ran : invoke host dchecks invocation s = .completed emission next) :
    ∃ settings record info, resolve host dchecks invocation.options.node = .ok (settings,record) ∧
      s.view settings.implParameterQualType = some info ∧ info.methods ≠ [] ∧
      ArgsAccepted host dchecks invocation := by
  obtain ⟨rule,options⟩ := invocation
  cases rule with
  | reflect_for_pimpl => cases injector
  | inject_pimpl_storage =>
    obtain ⟨settings,record,info,injected⟩ := inject_completed.mp ran
    refine ⟨settings,record,info,injected.resolved,injected.found,injected.methods,?_⟩
    have replied := injected.replied
    unfold storageReply at replied
    split at replied
    · cases replied
    · rename_i extra_size_bytes parsed
      exact ⟨extra_size_bytes,parsed⟩
  | inject_pimpl_method_calls =>
    obtain ⟨settings,record,info,injected⟩ := inject_completed.mp ran
    refine ⟨settings,record,info,injected.resolved,injected.found,injected.methods,?_⟩
    have replied := injected.replied
    unfold methodCallsReply at replied
    split at replied
    · cases replied
    · rename_i without_method_body parsed
      exact ⟨without_method_body,parsed⟩

theorem next_exact (recorded : RecordsDecl host) (path : Completes host dchecks State.start rows s) :
    (∃ emission next, invoke host dchecks invocation s = .completed emission next) ↔
      Next host dchecks (rows.map Prod.fst) invocation := by
  constructor
  · intro completes
    obtain ⟨emission,next,ran⟩ := completes
    by_cases reflection : isReflection invocation = true
    · obtain ⟨rule,options⟩ := invocation
      have reflects : rule = .reflect_for_pimpl := by simpa [isReflection] using reflection
      subst reflects
      obtain ⟨settings,record,reflected⟩ := reflect_completed ran
      refine ⟨settings,record,reflected.resolved,?_⟩
      rw [if_pos reflection]
      exact ⟨reflected.methods,(view_free path _).mp (cached_none.mpr reflected.fresh)⟩
    · obtain ⟨settings,record,info,resolved,found,methods,accepted⟩ :=
        injector_accepted (Bool.eq_false_iff.mpr reflection) ran
      refine ⟨settings,record,resolved,?_⟩
      rw [if_neg reflection]
      exact ⟨accepted,(view_provided path _).mpr ⟨info,found,methods⟩⟩
  · intro next
    obtain ⟨settings,record,resolved,own⟩ := next
    by_cases reflection : isReflection invocation = true
    · rw [if_pos reflection] at own
      obtain ⟨rule,options⟩ := invocation
      have reflects : rule = .reflect_for_pimpl := by simpa [isReflection] using reflection
      subst reflects
      obtain ⟨next,ran⟩ := reflect_completes resolved own.1 (cached_none.mp ((view_free path _).mpr own.2))
      exact ⟨_,next,ran⟩
    · rw [if_neg reflection] at own
      obtain ⟨accepted,provided⟩ := own
      obtain ⟨info,found,methods⟩ := (view_provided path _).mp provided
      obtain ⟨row,_,reflected,_,rfl⟩ := (view_completed path _ info).mp found
      have declared : (cleaned (host.ReflectClass reflected)).decl ≠ none := by simp [recorded reflected]
      exact injector_completes (Bool.eq_false_iff.mpr reflection) resolved accepted found declared methods

-- A whole source runs through exactly when it is well ordered.
theorem completes_exact (host : Host Record) (dchecks : Bool) (recorded : RecordsDecl host)
    (annotations : List (Invocation Record)) :
    (∃ rows s, rows.map Prod.fst = annotations ∧ Completes host dchecks State.start rows s) ↔
      WellOrdered host dchecks annotations := by
  induction annotations using List.reverseRecOn with
  | nil => exact iff_of_true ⟨[],State.start,rfl,.nil⟩ wellOrdered_nil
  | append_singleton earlier invocation ih =>
    rw [wellOrdered_snoc,← ih]
    constructor
    · intro completes
      obtain ⟨rows,s,same,path⟩ := completes
      obtain ⟨before,after,rfl,rfl,last⟩ := List.map_eq_append_iff.mp same
      obtain ⟨⟨_,emission⟩,rfl,rfl⟩ := List.map_eq_singleton_iff.mp last
      obtain ⟨middle,prior,ran⟩ := completes_last path
      exact ⟨⟨before,middle,rfl,prior⟩,(next_exact recorded prior).mp ⟨emission,s,ran⟩⟩
    · intro both
      obtain ⟨⟨rows,s,rfl,path⟩,next⟩ := both
      obtain ⟨emission,final,ran⟩ := (next_exact recorded path).mpr next
      exact ⟨rows ++ [(invocation,emission)],final,by simp,path.completed ran⟩

theorem completes_exact_witness :
    WellOrdered (plainHost fun _ => onlyBaz) true [reflectorOf,storageOf [⟨"sizePadding","8"⟩]] := by
  have first := Completes.nil.completed (rfl : invoke (plainHost fun _ => onlyBaz) true reflectorOf State.start =
    .completed ⟨"",[]⟩ _)
  have second := first.completed (rfl : invoke _ _ (storageOf [⟨"sizePadding","8"⟩]) _ =
    .completed ⟨storageText "FooImpl" 40 8,[]⟩ _)
  exact (completes_exact _ true (fun _ => rfl) _).mp ⟨_,_,rfl,second⟩

-- What the annotations of a source mean together, with no cache and no order:
-- the class each key stands for, and the text each annotation stands for.
def storedUnder (host : Host Record) (dchecks : Bool) (key : String) (invocation : Invocation Record) :
    Option (ClassInfo Record) :=
  match operation host dchecks invocation with
  | some (.write written info _) => if written = key then some info else none
  | _ => none

def reflectedUnder (host : Host Record) (dchecks : Bool) (annotations : List (Invocation Record)) :
    WriteOnce.Store String (ClassInfo Record) := fun key => annotations.findSome? (storedUnder host dchecks key)

def expansion (host : Host Record) (dchecks : Bool) (annotations : List (Invocation Record)) (decl : Nat) :
    Option String :=
  (annotations.find? fun invocation => invocation.options.decl == decl).bind fun invocation =>
    (operation host dchecks invocation).bind fun planned =>
      (WriteOnce.settled (reflectedUnder host dchecks annotations) planned).map Emission.replacer

-- The rewriter over the sources it was given: ranges that are each replaced
-- once do not disturb each other.
def ReplacesRanges (parts : List (Regions.Part Nat)) (getRewrittenText : List Edit → String) : Prop :=
  ∀ edits, (edits.map Edit.decl).Nodup → getRewrittenText edits =
    Regions.contents (Regions.replaceAll (edits.map fun edit => (edit.decl,edit.replacer)) parts)

theorem invoke_edits (ran : invoke host dchecks invocation s = .completed emission next) :
    next.edits = s.edits ++ [⟨invocation.options.decl,emission.replacer⟩] := by
  obtain ⟨rule,options⟩ := invocation
  cases rule with
  | reflect_for_pimpl =>
    obtain ⟨settings,record,reflected⟩ := reflect_completed ran
    rw [reflected.edited,reflected.silent]
  | inject_pimpl_storage | inject_pimpl_method_calls =>
    obtain ⟨settings,record,info,injected⟩ := inject_completed.mp ran
    rw [injected.after]
    rfl

theorem completes_edits (path : Completes host dchecks State.start rows s) :
    s.edits = rows.map fun row => ⟨row.1.options.decl,row.2.replacer⟩ := by
  induction rows using List.reverseRecOn generalizing s with
  | nil =>
    rw [Machines.runs_nil.mp path]
    rfl
  | append_singleton earlier row ih =>
    obtain ⟨middle,prior,ran⟩ := completes_last path
    rw [invoke_edits ran,ih prior,List.map_append]
    rfl

theorem storedUnder_some {key : String} {info : ClassInfo Record} :
    storedUnder host dchecks key invocation = some info ↔
      ∃ answer, operation host dchecks invocation = some (.write key info answer) := by
  unfold storedUnder
  split
  · rename_i written stored answer plan
    rw [plan]
    by_cases same : written = key
    · subst same
      simp
    · simp [same]
  · rename_i other
    constructor
    · intro stored
      cases stored
    · intro plan
      obtain ⟨answer,plan⟩ := plan
      exact absurd plan (other key info answer)

theorem view_wrote (path : Completes host dchecks State.start rows s) (key : String) (info : ClassInfo Record) :
    s.view key = some info ↔ ∃ invocation ∈ rows.map Prod.fst, storedUnder host dchecks key invocation = some info := by
  rw [WriteOnce.runs_lookup (runs_refine path),Order.asked_operations]
  simp only [view_start,reduceCtorEq,false_or,WriteOnce.Wrote,List.mem_filterMap,storedUnder_some]
  constructor
  · intro wrote
    obtain ⟨answer,invocation,member,plan⟩ := wrote
    exact ⟨invocation,member,answer,plan⟩
  · intro wrote
    obtain ⟨invocation,member,answer,plan⟩ := wrote
    exact ⟨answer,invocation,member,plan⟩

theorem view_reflectedUnder (path : Completes host dchecks State.start rows s)
    (order : (rows.map Prod.fst).Perm annotations) : s.view = reflectedUnder host dchecks annotations := by
  have found : ∀ key info, reflectedUnder host dchecks annotations key = some info → s.view key = some info := by
    intro key info first
    obtain ⟨invocation,member,stored⟩ := List.exists_of_findSome?_eq_some first
    exact (view_wrote path key info).mpr ⟨invocation,order.mem_iff.mpr member,stored⟩
  funext key
  cases listed : reflectedUnder host dchecks annotations key with
  | some info => exact found key info listed
  | none =>
    cases held : s.view key with
    | none => rfl
    | some info =>
      obtain ⟨invocation,member,stored⟩ := (view_wrote path key info).mp held
      have unstored := List.findSome?_eq_none_iff.mp listed invocation (order.mem_iff.mp member)
      rw [stored] at unstored
      cases unstored

theorem expansion_row (path : Completes host dchecks State.start rows s)
    (order : (rows.map Prod.fst).Perm annotations)
    (distinct : (annotations.map fun invocation => invocation.options.decl).Nodup)
    {row : Invocation Record × Emission} (member : row ∈ rows) :
    expansion host dchecks annotations row.1.options.decl = some row.2.replacer := by
  have inside : row.1 ∈ annotations := order.mem_iff.mp (List.mem_map.mpr ⟨row,member,rfl⟩)
  have found : annotations.find? (fun invocation => invocation.options.decl == row.1.options.decl) = some row.1 := by
    cases first : annotations.find? (fun invocation => invocation.options.decl == row.1.options.decl) with
    | none =>
      have absent := List.find?_eq_none.mp first row.1 inside
      simp at absent
    | some other =>
      have same : other.options.decl = row.1.options.decl := by simpa using List.find?_some first
      rw [List.inj_on_of_nodup_map distinct (List.mem_of_find?_eq_some first) inside same]
  obtain ⟨planned,plan,answer⟩ := runs_settled path (List.mem_map.mpr ⟨row,member,rfl⟩)
  rw [view_reflectedUnder path order] at answer
  simp [expansion,found,plan,answer]

theorem completes_expansion (path : Completes host dchecks State.start rows s)
    (order : (rows.map Prod.fst).Perm annotations)
    (distinct : (annotations.map fun invocation => invocation.options.decl).Nodup) (decl : Nat) :
    (rows.map fun row => (row.1.options.decl,row.2.replacer)).reverse.lookup decl =
      expansion host dchecks annotations decl := by
  cases listed : (rows.map fun row => (row.1.options.decl,row.2.replacer)).reverse.lookup decl with
  | some text =>
    obtain ⟨before,after,split,_⟩ := List.lookup_eq_some_iff.mp listed
    have member : (decl,text) ∈ rows.map fun row => (row.1.options.decl,row.2.replacer) := by
      rw [← List.mem_reverse,split]
      simp
    obtain ⟨row,inside,equal⟩ := List.mem_map.mp member
    cases equal
    exact (expansion_row path order distinct inside).symm
  | none =>
    have absent : annotations.find? (fun invocation => invocation.options.decl == decl) = none := by
      rw [List.find?_eq_none]
      intro invocation inside
      obtain ⟨row,member,rfl⟩ := List.mem_map.mp (order.mem_iff.mpr inside)
      have other := List.lookup_eq_none_iff.mp listed (row.1.options.decl,row.2.replacer)
        (List.mem_reverse.mpr (List.mem_map.mpr ⟨row,member,rfl⟩))
      have different : decl ≠ row.1.options.decl := by simpa using other
      simpa using different.symm
    simp [expansion,absent]

-- From sources to sources: whatever order the annotations were run in, the text
-- that comes out is the one that went in, with each annotated declaration
-- replaced by what its annotation stands for among the others.
theorem sources_expanded {parts : List (Regions.Part Nat)} {getRewrittenText : List Edit → String}
    (path : Completes host dchecks State.start rows s) (order : (rows.map Prod.fst).Perm annotations)
    (distinct : (annotations.map fun invocation => invocation.options.decl).Nodup)
    (rewrites : ReplacesRanges parts getRewrittenText) :
    getRewrittenText s.edits = Regions.contents (Regions.expand (expansion host dchecks annotations) parts) := by
  have edits := completes_edits path
  have once : (s.edits.map Edit.decl).Nodup := by
    have same : s.edits.map Edit.decl = (rows.map Prod.fst).map fun invocation => invocation.options.decl := by
      simp [edits,Function.comp_def]
    rw [same]
    exact (order.map _).nodup_iff.mpr distinct
  have table : (s.edits.map fun edit => (edit.decl,edit.replacer)) =
      rows.map fun row => (row.1.options.decl,row.2.replacer) := by
    simp [edits,Function.comp_def]
  rw [rewrites s.edits once,Regions.replaceAll_expand,table]
  congr 2
  funext decl
  exact completes_expansion path order distinct decl

-- A header with two annotations, the first of which needs the other one run first.
def fooSource : List (Regions.Part Nat) :=
  [⟨none,"class Foo \x7b\n"⟩,⟨some 0,"template<typename impl = FooImpl> class PimplStorageInjector \x7b\x7d;"⟩,⟨none,"\n\x7d;\n"⟩,
    ⟨some 1,"template<typename impl = FooImpl> class PimplReflector \x7b\x7d;"⟩,⟨none,"\n"⟩]

def annotationAt (decl : Nat) (invocation : Invocation Unit) : Invocation Unit :=
  {invocation with options := {invocation.options with decl := decl}}

def rewriteFoo (edits : List Edit) : String :=
  Regions.contents (Regions.replaceAll (edits.map fun edit => (edit.decl,edit.replacer)) fooSource)

theorem sources_expanded_witness :
    rewriteFoo [⟨1,""⟩,⟨0,storageText "FooImpl" 32 8⟩] =
      Regions.contents (Regions.expand (expansion (plainHost fun _ => onlyBaz) true
        [annotationAt 0 (storageOf []),annotationAt 1 reflectorOf]) fooSource) := by
  have first := Completes.nil.completed (rfl : invoke (plainHost fun _ => onlyBaz) true (annotationAt 1 reflectorOf)
    State.start = .completed ⟨"",[]⟩ _)
  have second := first.completed (rfl : invoke _ _ (annotationAt 0 (storageOf [])) _ =
    .completed ⟨storageText "FooImpl" 32 8,[]⟩ _)
  have rewrites : ReplacesRanges fooSource rewriteFoo := fun _ _ => rfl
  have text := sources_expanded second (.swap _ _ _) (by decide) rewrites
  rw [completes_edits second] at text
  exact text

end FlexPimpl.Sources
