import FlexPimpl.Machines
import Mathlib.Data.List.Perm.Basic

namespace WriteOnce

-- A store in which a key is written at most once. A write of a present key and
-- a read of an absent one are refused; a read answers from its own key's value
-- only and changes nothing.
abbrev Store (Key Value : Type) := Key → Option Value

inductive Operation (Key Value Answer : Type) where
  | write (key : Key) (value : Value) (answer : Answer)
  | read (key : Key) (reply : Value → Option Answer)

def Operation.writtenKey : Operation Key Value Answer → Option Key
  | .write key _ _ => some key
  | .read .. => none

@[simp] theorem writtenKey_write (key : Key) (value : Value) (answer : Answer) :
    (Operation.write key value answer).writtenKey = some key := rfl
@[simp] theorem writtenKey_read (key : Key) (reply : Value → Option Answer) :
    (Operation.read key reply).writtenKey = none := rfl

def Operation.isWrite : Operation Key Value Answer → Bool
  | .write .. => true
  | .read .. => false

def Extends (before after : Store Key Value) : Prop :=
  ∀ key value, before key = some value → after key = some value

theorem Extends.refl (store : Store Key Value) : Extends store store := fun _ _ found => found
theorem Extends.trans (left : Extends before middle) (right : Extends middle after) : Extends before after :=
  fun key value found => right key value (left key value found)

def settled (store : Store Key Value) : Operation Key Value Answer → Option Answer
  | .write _ _ answer => some answer
  | .read key reply => (store key).bind reply

theorem settled_extends {before after : Store Key Value} {operation : Operation Key Value Answer}
    (extension : Extends before after) (known : settled before operation = some answer) :
    settled after operation = some answer := by
  cases operation with
  | write key value written => exact known
  | read key reply =>
    simp only [settled,Option.bind_eq_some_iff] at known ⊢
    obtain ⟨value,found,replied⟩ := known
    exact ⟨value,extension key value found,replied⟩

def Wrote (operations : List (Operation Key Value Answer)) (key : Key) (value : Value) : Prop :=
  ∃ answer, Operation.write key value answer ∈ operations

theorem wrote_append (earlier later : List (Operation Key Value Answer)) (key : Key) (value : Value) :
    Wrote (earlier++later) key value ↔ Wrote earlier key value ∨ Wrote later key value := by
  simp [Wrote,List.mem_append,exists_or]

section Execution
variable [DecidableEq Key]

def put (store : Store Key Value) (key : Key) (value : Value) : Store Key Value :=
  fun other => if other = key then some value else store other

@[simp] theorem put_same (store : Store Key Value) (key : Key) (value : Value) :
    put store key value key = some value := by simp [put]

theorem put_other (store : Store Key Value) (value : Value) (different : other ≠ key) :
    put store key value other = store other := by simp [put,different]

-- Everything an accepted operation can do; every invariant below is read off
-- these two cases.
inductive Step (store : Store Key Value) : Operation Key Value Answer → Answer → Store Key Value → Prop where
  | write (absent : store key = none) : Step store (.write key value answer) answer (put store key value)
  | read (found : store key = some value) (replied : reply value = some answer) :
      Step store (.read key reply) answer store

def machine : Machines.Machine (Store Key Value) (Operation Key Value Answer × Answer) :=
  fun store row next => Step store row.1 row.2 next

abbrev Runs (start : Store Key Value) (trace : List (Operation Key Value Answer × Answer)) (after : Store Key Value) :
    Prop := Machines.Runs machine start trace after

theorem runs_step {start middle after : Store Key Value} {earlier : List (Operation Key Value Answer × Answer)}
    {operation : Operation Key Value Answer} (prior : Runs start earlier middle)
    (step : Step middle operation answer after) : Runs start (earlier ++ [(operation,answer)]) after :=
  Machines.Runs.step prior step

theorem put_extends {store : Store Key Value} (value : Value) (absent : store key = none) :
    Extends store (put store key value) := by
  intro other kept found
  have different : other ≠ key := by
    intro same
    rw [same,absent] at found
    cases found
  rw [put_other _ _ different]
  exact found

theorem step_extends {store next : Store Key Value} {operation : Operation Key Value Answer}
    (step : Step store operation answer next) : Extends store next := by
  cases step with
  | write absent => exact put_extends _ absent
  | read found replied => exact Extends.refl store

theorem runs_extends {start after : Store Key Value} {trace : List (Operation Key Value Answer × Answer)}
    (path : Runs start trace after) : Extends start after := by
  induction path with
  | nil => exact Extends.refl start
  | step prior step ih => exact ih.trans (step_extends step)

theorem step_settled {store next : Store Key Value} {operation : Operation Key Value Answer}
    (step : Step store operation answer next) : settled next operation = some answer := by
  cases step with
  | write absent => rfl
  | read found replied => simp [settled,found,replied]

theorem runs_settled {start after : Store Key Value} {trace : List (Operation Key Value Answer × Answer)}
    (path : Runs start trace after) : ∀ row ∈ trace, settled after row.1 = some row.2 := by
  induction path with
  | nil => intro row member; cases member
  | step prior step ih =>
    intro row member
    rcases List.mem_append.mp member with old | new
    · exact settled_extends (step_extends step) (ih row old)
    · cases List.mem_singleton.mp new
      exact step_settled step

theorem step_lookup {store next : Store Key Value} {operation : Operation Key Value Answer}
    (step : Step store operation answer next) (key : Key) (value : Value) :
    next key = some value ↔ store key = some value ∨ Wrote [operation] key value := by
  cases step with
  | write absent =>
    rename_i written stored
    by_cases same : key = written
    · subst same
      simp only [put_same,absent,Option.some.injEq,Wrote,List.mem_singleton,reduceCtorEq,false_or]
      exact ⟨fun equal => ⟨_,by rw [equal]⟩,fun ⟨_,equal⟩ => by cases equal; rfl⟩
    · simp [Wrote,put_other _ _ same,same]
  | read found replied => simp [Wrote]

theorem step_congr {left right afterLeft afterRight : Store Key Value} {operation : Operation Key Value Answer}
    {key : Key} (first : Step left operation answer afterLeft) (second : Step right operation other afterRight)
    (same : left key = right key) : afterLeft key = afterRight key := by
  cases first with
  | read found replied => cases second with | read again reanswered => exact same
  | write absent =>
    cases second with
    | write fresh =>
      unfold put
      rw [same]

-- The store after a run is its start plus exactly what the run wrote.
theorem runs_lookup {start after : Store Key Value} {trace : List (Operation Key Value Answer × Answer)}
    (path : Runs start trace after) (key : Key) (value : Value) :
    after key = some value ↔ start key = some value ∨ Wrote (trace.map Prod.fst) key value := by
  induction path with
  | nil => simp [Wrote]
  | step prior step ih =>
    rw [step_lookup step,ih,List.map_append,wrote_append,or_assoc]
    rfl

-- Two accepted runs of the same operations, in whatever orders, end in one store.
theorem runs_perm {start first second : Store Key Value}
    {left right : List (Operation Key Value Answer × Answer)}
    (ranLeft : Runs start left first) (ranRight : Runs start right second)
    (reordered : (left.map Prod.fst).Perm (right.map Prod.fst)) : first = second := by
  have wrote : ∀ key value, Wrote (left.map Prod.fst) key value ↔ Wrote (right.map Prod.fst) key value :=
    fun key value => exists_congr fun answer => reordered.mem_iff
  funext key
  apply Option.ext
  intro value
  rw [runs_lookup ranLeft,runs_lookup ranRight,wrote]

-- No key is written twice, nor written over the start.
theorem runs_distinct {start after : Store Key Value} {trace : List (Operation Key Value Answer × Answer)}
    (path : Runs start trace after) :
    ((trace.map Prod.fst).filterMap Operation.writtenKey).Nodup ∧
      ∀ key ∈ (trace.map Prod.fst).filterMap Operation.writtenKey, start key = none := by
  induction path with
  | nil => simp
  | @step earlier middle row after prior step ih =>
    obtain ⟨operation,answer⟩ := row
    have taken : Step middle operation answer after := step
    rw [List.map_append,List.filterMap_append]
    cases taken with
    | read found replied => simpa only [List.map_cons,List.map_nil,List.filterMap_cons,writtenKey_read,
        List.filterMap_nil,List.append_nil] using ih
    | write absent =>
      rename_i key value
      have unwritten : key ∉ (earlier.map Prod.fst).filterMap Operation.writtenKey := by
        intro member
        obtain ⟨old,inside,named⟩ := List.mem_filterMap.mp member
        cases old with
        | read other reply => cases named
        | write other stored written =>
          cases named
          have present := (runs_lookup prior key stored).mpr (.inr ⟨written,inside⟩)
          rw [absent] at present
          cases present
      have unstarted : start key = none := by
        cases begun : start key with
        | none => rfl
        | some old =>
          have present := runs_extends prior key old begun
          rw [absent] at present
          cases present
      simp only [List.map_cons,List.map_nil,List.filterMap_cons,writtenKey_write,List.filterMap_nil]
      constructor
      · rw [List.nodup_append]
        refine ⟨ih.1,by simp,?_⟩
        rintro other member last again rfl
        cases List.mem_singleton.mp again
        exact unwritten member
      · intro other member
        rcases List.mem_append.mp member with old | new
        · exact ih.2 other old
        · cases List.mem_singleton.mp new
          exact unstarted

theorem writes_run {start : Store Key Value} (operations : List (Operation Key Value Answer))
    (onlyWrites : ∀ operation ∈ operations, operation.isWrite = true)
    (distinct : (operations.filterMap Operation.writtenKey).Nodup)
    (fresh : ∀ key ∈ operations.filterMap Operation.writtenKey, start key = none) :
    ∃ trace after, trace.map Prod.fst = operations ∧ Runs start trace after := by
  induction operations using List.reverseRecOn with
  | nil => exact ⟨[],start,rfl,.nil⟩
  | append_singleton earlier operation ih =>
    rw [List.filterMap_append] at distinct fresh
    obtain ⟨trace,middle,same,prior⟩ := ih (fun old member => onlyWrites old (List.mem_append_left _ member))
      (List.nodup_append.mp distinct).1 (fun key member => fresh key (List.mem_append_left _ member))
    cases operation with
    | read key reply => simpa [Operation.isWrite] using onlyWrites (.read key reply) (by simp)
    | write key value answer =>
      have absent : middle key = none := by
        cases held : middle key with
        | none => rfl
        | some old =>
          rcases (runs_lookup prior key old).mp held with begun | ⟨written,inside⟩
          · rw [fresh key (List.mem_append_right _ (by simp [Operation.writtenKey]))] at begun
            cases begun
          · rw [same] at inside
            have again := (List.nodup_append.mp distinct).2.2 key
              (List.mem_filterMap.mpr ⟨_,inside,rfl⟩) key (by simp [Operation.writtenKey])
            exact absurd rfl again
      exact ⟨trace ++ [(.write key value answer,answer)],_,by simp [same],runs_step prior (.write absent)⟩

theorem reads_run {store : Store Key Value} (operations : List (Operation Key Value Answer))
    (onlyReads : ∀ operation ∈ operations, operation.isWrite = false)
    (known : ∀ operation ∈ operations, ∃ answer, settled store operation = some answer) :
    ∃ trace, trace.map Prod.fst = operations ∧ Runs store trace store := by
  induction operations using List.reverseRecOn with
  | nil => exact ⟨[],rfl,.nil⟩
  | append_singleton earlier operation ih =>
    obtain ⟨trace,same,prior⟩ := ih (fun old member => onlyReads old (List.mem_append_left _ member))
      (fun old member => known old (List.mem_append_left _ member))
    obtain ⟨answer,answered⟩ := known operation (by simp)
    cases operation with
    | write key value written => simpa [Operation.isWrite] using onlyReads (.write key value written) (by simp)
    | read key reply =>
      obtain ⟨value,found,replied⟩ := Option.bind_eq_some_iff.mp answered
      exact ⟨trace ++ [(.read key reply,answer)],by simp [same],runs_step prior (.read found replied)⟩

-- Any order of an accepted run that has every write before every read is
-- accepted too, and ends in the same store.
theorem writes_first {start after : Store Key Value} {trace : List (Operation Key Value Answer × Answer)}
    {writes reads : List (Operation Key Value Answer)} (path : Runs start trace after)
    (reordered : (trace.map Prod.fst).Perm (writes ++ reads))
    (onlyWrites : ∀ operation ∈ writes, operation.isWrite = true)
    (onlyReads : ∀ operation ∈ reads, operation.isWrite = false) :
    ∃ steps, steps.map Prod.fst = writes ++ reads ∧ Runs start steps after := by
  have unwritten : reads.filterMap Operation.writtenKey = [] := by
    rw [List.filterMap_eq_nil_iff]
    intro operation member
    cases operation with
    | read key reply => rfl
    | write key value written => simpa [Operation.isWrite] using onlyReads _ member
  have keys := reordered.filterMap Operation.writtenKey
  rw [List.filterMap_append,unwritten,List.append_nil] at keys
  obtain ⟨distinct,fresh⟩ := runs_distinct path
  obtain ⟨first,middle,sameWrites,written⟩ := writes_run writes onlyWrites (keys.nodup_iff.mp distinct)
    (fun key member => fresh key (keys.mem_iff.mpr member))
  have stores : middle = after := by
    have wrote : ∀ key value, Wrote (first.map Prod.fst) key value ↔ Wrote (trace.map Prod.fst) key value := by
      intro key value
      rw [sameWrites]
      refine exists_congr fun answer => ?_
      rw [reordered.mem_iff,List.mem_append]
      refine ⟨.inl,fun member => member.resolve_right fun read => ?_⟩
      simpa [Operation.isWrite] using onlyReads _ read
    funext key
    apply Option.ext
    intro value
    rw [runs_lookup written,runs_lookup path,wrote]
  subst stores
  have known : ∀ operation ∈ reads, ∃ answer, settled middle operation = some answer := by
    intro operation member
    obtain ⟨row,inside,rfl⟩ := List.mem_map.mp (reordered.mem_iff.mpr (List.mem_append_right _ member))
    exact ⟨row.2,runs_settled path row inside⟩
  obtain ⟨second,sameReads,read⟩ := reads_run reads onlyReads known
  exact ⟨first ++ second,by rw [List.map_append,sameWrites,sameReads],Machines.runs_append.mpr ⟨_,written,read⟩⟩

end Execution

end WriteOnce
