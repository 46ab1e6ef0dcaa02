import ShmFrame.Foundation.Party
import ShmFrame.Names.Create

/-! `LLPublisher::create` as one uninterrupted call, with every step of the operating system
that may fail inside `LLSegment::create`, `open` and `unlink`. Closing an object does not
remove its name.
-/

namespace ShmFrame.Names

open ShmFrame.Foundation

/-- A shared-memory object with its header words. -/
structure SharedObject where
  size : UInt64 := 0
  header : LLHeader := {}

/-- The bytes of a name up to a NUL; slashes in front make no difference. -/
def posixName (name : Name) : Name := (name.takeWhile (· ≠ 0)).dropWhile (· = 47)

example : posixName [47, 99, 97, 109] = posixName [99, 97, 109, 0, 49] := by decide

/-- What the system knows under which name, and all objects there ever were. Two names are one
to the system if `objectName` makes the same of them.
-/
structure NameTable where
  objectName : Name → Name := posixName
  entries : Name → Option Nat := fun _ => none
  objects : Nat → SharedObject := fun _ => {}
  count : Nat := 0
  below : ∀ entry object, entries entry = some object → object < count := by simp

namespace NameTable

/-- The object a name is bound to. -/
def bound (t : NameTable) (name : Name) : Option Nat := t.entries (t.objectName name)

def setObject (t : NameTable) (index : Nat) (object : SharedObject) : NameTable :=
  { t with objects := assign t.objects index object }

/-- Binds a name to a new empty object. -/
def bind (t : NameTable) (name : Name) : NameTable where
  objectName := t.objectName
  entries := assign t.entries (t.objectName name) (some t.count)
  objects := assign t.objects t.count {}
  count := t.count + 1
  below := fun entry object bound => by
    by_cases same : entry = t.objectName name
    · subst same
      rw [assign_same] at bound
      cases bound
      exact Nat.lt_succ_self _
    · rw [assign_apart _ _ same] at bound
      exact Nat.lt_succ_of_lt (t.below entry object bound)

/-- Removes a name. -/
def unbind (t : NameTable) (name : Name) : NameTable where
  objectName := t.objectName
  entries := assign t.entries (t.objectName name) none
  objects := t.objects
  count := t.count
  below := fun entry object bound => by
    by_cases same : entry = t.objectName name
    · subst same
      rw [assign_same] at bound
      cases bound
    · rw [assign_apart _ _ same] at bound
      exact t.below entry object bound

@[simp] theorem bind_bound (t : NameTable) (name : Name)
    : (t.bind name).bound name = some t.count :=
  assign_same _ _ _

@[simp] theorem unbind_bound (t : NameTable) (name : Name) : (t.unbind name).bound name = none :=
  assign_same _ _ _

/-- Names that are one to the system are bound to one object. -/
theorem bound_congr (t : NameTable) {name other : Name}
    (same : t.objectName other = t.objectName name)
    : t.bound other = t.bound name :=
  congrArg t.entries same

/-- Names the system tells apart are removed one at a time. -/
theorem unbind_bound_apart (t : NameTable) {name other : Name}
    (apart : t.objectName other ≠ t.objectName name)
    : (t.unbind name).bound other = t.bound other :=
  assign_apart _ _ apart

@[simp] theorem setObject_bound (t : NameTable) (index : Nat) (object : SharedObject)
    : (t.setObject index object).bound = t.bound :=
  rfl

end NameTable

-----------------------------------------------------------------------------------------
-- LLSegment
-----------------------------------------------------------------------------------------

/-- How the system answers an attempt to create: `refuses` is any failure before there is an
object, other than that the name is taken; `region` is the size of the mapping, none if there
is no mapping or no address.
-/
structure CreateSystem where
  refuses : Bool := false
  truncates : Bool := true
  region : Option UInt64 := some 0xFFFFFFFFFFFFFFFF

/-- The mapping is there and large enough. -/
def CreateSystem.completes (system : CreateSystem) (bytes : UInt64) : Bool :=
  system.truncates && system.region.any fun size => !(size < bytes)

/-- `LLSegment::create`: the segment if there is one, and `already_exists`. -/
def createSegment (t : NameTable) (name : Name) (bytes : UInt64) (system : CreateSystem)
    : NameTable × Option Nat × Bool :=
  if system.refuses then (t, none, false)
  else
    match t.bound name with
    | some _ => (t, none, true)
    | none =>
        let opened := t.bind name
        if !system.truncates then (opened, none, false)
        else
          let sized := opened.setObject t.count { size := bytes }
          match system.region with
          | none => (sized, none, false)
          | some size =>
              if size < bytes then (sized, none, false) else (sized, some t.count, false)

/-- `LLSegment::open`: the object the name is bound to, unless the system refuses to open or
map it, or it is not sized yet.
-/
def openSegment (t : NameTable) (name : Name) (refuses : Bool) : Option Nat :=
  match t.bound name with
  | none => none
  | some object => if refuses || (t.objects object).size = 0 then none else some object

/-- `LLSegment::unlink`, whose failures are swallowed. -/
def unlink (t : NameTable) (name : Name) (removes : Bool) : NameTable :=
  if removes then t.unbind name else t

-----------------------------------------------------------------------------------------
-- LLPublisher
-----------------------------------------------------------------------------------------

/-- The threshold of the reclaim test. -/
def LLConfig.staleNs (cfg : LLConfig) : UInt64 := cfg.staleProducerMs.toUInt64 * 1000000

/-- The reclaim test: an invalid header, the shutdown flag or a stale heartbeat. -/
def abandoned (cfg : LLConfig) (now : UInt64) (object : SharedObject) : Bool :=
  match validateHeader object.size object.header with
  | none => true
  | some _ =>
      let shut := object.header.shutdown ≠ 0
      let age := now - object.header.lastHeartbeatNs
      shut || age ≥ LLConfig.staleNs cfg

/-- How the system answers one call of `create`, and the readings of the clock: for the
reclaim test and for the first heartbeat.
-/
structure CreateCall where
  first : CreateSystem := {}
  opens : Bool := true
  removes : Bool := true
  second : CreateSystem := {}
  judged : UInt64 := 0
  session : UInt64 := 0
  started : UInt64 := 0

/-- The name may be taken over: what is bound to it is abandoned, or cannot be opened. -/
def reclaims (t : NameTable) (cfg : LLConfig) (call : CreateCall) : Bool :=
  match openSegment t cfg.name (!call.opens) with
  | some existing => abandoned cfg call.judged (t.objects existing)
  | none => true

/-- The header of a publisher that has just been created. -/
def startedHeader (cfg : LLConfig) (call : CreateCall) : LLHeader :=
  { LLHeader.initialise cfg call.session call.started with magic := kMagic }

/-- The rest of `create` once there is a segment, or none. -/
def finishCreate (cfg : LLConfig) (call : CreateCall)
    : NameTable × Option Nat × Bool → NameTable × Except LLStatus Nat
  | (t, none, exists_) => (t, .error (if exists_ then .alreadyExists else .mappingFailure))
  | (t, some segment, _) =>
      let header := startedHeader cfg call
      (t.setObject segment { t.objects segment with header }, .ok segment)

/-- `LLPublisher::create`: the segment of the new publisher, or the status of a failure. -/
def createPublisher (t : NameTable) (cfg : LLConfig) (call : CreateCall)
    : NameTable × Except LLStatus Nat :=
  if !cfg.accepted then (t, .error .invalidConfig)
  else
    let bytes := (computeLayout cfg).totalSize
    match createSegment t cfg.name bytes call.first with
    | (t, none, true) =>
        if !reclaims t cfg call then (t, .error .alreadyExists)
        else
          let t := unlink t cfg.name call.removes
          finishCreate cfg call (createSegment t cfg.name bytes call.second)
    | attempt => finishCreate cfg call attempt

-----------------------------------------------------------------------------------------
-- What one call can do
-----------------------------------------------------------------------------------------

/-- A name is bound to a new object; all others are as before. -/
structure Adds (t : NameTable) (name : Name) (next : NameTable) : Prop where
  objectName : next.objectName = t.objectName
  entries : next.entries = assign t.entries (t.objectName name) (some t.count)
  count : next.count = t.count + 1
  others : ∀ object, object ≠ t.count → next.objects object = t.objects object

/-- The new object is what the name is bound to. -/
theorem Adds.bound {t next : NameTable} {name : Name} (adds : Adds t name next)
    : next.bound name = some t.count := by
  rw [NameTable.bound, adds.objectName, adds.entries, assign_same]

/-- Binding a name adds an object, whatever its size and its header are set to. -/
theorem Adds.bind (t : NameTable) (name : Name) : Adds t name (t.bind name) :=
  ⟨rfl, rfl, rfl, fun _ other => assign_apart _ _ other⟩

/-- Changing the new object leaves the others alone. -/
theorem Adds.setObject {t next : NameTable} {name : Name} (adds : Adds t name next)
    (object : SharedObject)
    : Adds t name (next.setObject t.count object) where
  objectName := adds.objectName
  entries := adds.entries
  count := adds.count
  others := fun other apart => (assign_apart _ _ apart).trans (adds.others other apart)

/-- Everything an attempt to create can do. -/
inductive CreateAttempt (t : NameTable) (name : Name) (bytes : UInt64) (system : CreateSystem)
    : NameTable × Option Nat × Bool → Prop
  | refused (refuses : system.refuses = true)
    : CreateAttempt t name bytes system (t, none, false)
  | present {object} (proceeds : system.refuses = false) (taken : t.bound name = some object)
    : CreateAttempt t name bytes system (t, none, true)
  | broken {next} (proceeds : system.refuses = false) (free : t.bound name = none)
    (fails : system.completes bytes = false) (adds : Adds t name next)
    : CreateAttempt t name bytes system (next, none, false)
  | created (proceeds : system.refuses = false) (free : t.bound name = none)
    (completes : system.completes bytes = true)
    : CreateAttempt t name bytes system
        ((t.bind name).setObject t.count { size := bytes }, some t.count, false)

/-- An attempt is one of the listed cases, by its tests in order. -/
theorem createSegment_cases (t : NameTable) (name : Name) (bytes : UInt64)
    (system : CreateSystem)
    : CreateAttempt t name bytes system (createSegment t name bytes system) := by
  have adds := Adds.bind t name
  unfold createSegment
  split
  · rename_i refuses
    exact .refused refuses
  rename_i proceeds
  have proceeds : system.refuses = false := by simpa using proceeds
  split
  · rename_i object taken
    exact .present proceeds taken
  rename_i free
  dsimp only
  split
  · rename_i stuck
    exact .broken proceeds free (by simp_all [CreateSystem.completes]) adds
  rename_i truncates
  split
  · rename_i unmapped
    exact .broken proceeds free (by simp [CreateSystem.completes, unmapped]) (adds.setObject _)
  rename_i size mapped
  split
  · rename_i short
    exact .broken proceeds free (by simp [CreateSystem.completes, mapped, short])
      (adds.setObject _)
  · rename_i large
    exact .created proceeds free (by simp_all [CreateSystem.completes])

/-- The name is bound to the segment of a new publisher. -/
structure Installs (t : NameTable) (cfg : LLConfig) (call : CreateCall) (next : NameTable)
    : Prop where
  adds : Adds t cfg.name next
  object
    : next.objects t.count
      = { size := (computeLayout cfg).totalSize, header := startedHeader cfg call }

/-- What `create` does with a segment installs it. -/
theorem installs_created (t : NameTable) (cfg : LLConfig) (call : CreateCall)
    : Installs t cfg call
        (finishCreate cfg call
          ((t.bind cfg.name).setObject t.count { size := (computeLayout cfg).totalSize },
            some t.count, false)).1 where
  adds := ((Adds.bind t cfg.name).setObject _).setObject _
  object := by
    simp only [finishCreate, NameTable.setObject, assign_same]

/-- Everything a call of `create` can do. -/
inductive CreateOutcome (t : NameTable) (cfg : LLConfig) (call : CreateCall)
    : NameTable × Except LLStatus Nat → Prop
  | invalid {status} (rejected : cfg.accepted = false) : CreateOutcome t cfg call (t, .error status)
  | refused {status} (refuses : call.first.refuses = true)
    : CreateOutcome t cfg call (t, .error status)
  | broken {next status} (accepted : cfg.accepted = true) (proceeds : call.first.refuses = false)
    (free : t.bound cfg.name = none)
    (fails : call.first.completes (computeLayout cfg).totalSize = false)
    (adds : Adds t cfg.name next)
    : CreateOutcome t cfg call (next, .error status)
  | created {next} (accepted : cfg.accepted = true) (free : t.bound cfg.name = none)
    (completes : call.first.completes (computeLayout cfg).totalSize = true)
    (installs : Installs t cfg call next)
    : CreateOutcome t cfg call (next, .ok t.count)
  | spared {object status} (taken : t.bound cfg.name = some object) (opens : call.opens = true)
    (alive : abandoned cfg call.judged (t.objects object) = false)
    : CreateOutcome t cfg call (t, .error status)
  | stuck {object status} (taken : t.bound cfg.name = some object)
    (fails : call.removes = false)
    : CreateOutcome t cfg call (t, .error status)
  | removed {object status} (accepted : cfg.accepted = true)
    (proceeds : call.first.refuses = false) (taken : t.bound cfg.name = some object)
    (reclaimed
      : call.opens = false ∨ abandoned cfg call.judged (t.objects object) = true)
    (removes : call.removes = true) (refuses : call.second.refuses = true)
    : CreateOutcome t cfg call (t.unbind cfg.name, .error status)
  | rebroken {object next status} (accepted : cfg.accepted = true)
    (proceeds : call.first.refuses = false) (taken : t.bound cfg.name = some object)
    (reclaimed
      : call.opens = false ∨ abandoned cfg call.judged (t.objects object) = true)
    (removes : call.removes = true) (again : call.second.refuses = false)
    (fails : call.second.completes (computeLayout cfg).totalSize = false)
    (adds : Adds (t.unbind cfg.name) cfg.name next)
    : CreateOutcome t cfg call (next, .error status)
  | recreated {object next} (accepted : cfg.accepted = true)
    (proceeds : call.first.refuses = false) (taken : t.bound cfg.name = some object)
    (reclaimed
      : call.opens = false ∨ abandoned cfg call.judged (t.objects object) = true)
    (removes : call.removes = true) (again : call.second.refuses = false)
    (completes : call.second.completes (computeLayout cfg).totalSize = true)
    (installs : Installs (t.unbind cfg.name) cfg call next)
    : CreateOutcome t cfg call (next, .ok t.count)

/-- An object that is not sized yet has no valid header. -/
theorem abandoned_of_empty {cfg : LLConfig} {now : UInt64} {object : SharedObject}
    (empty : object.size = 0)
    : abandoned cfg now object = true := by
  have small : object.size < sizeofLLHeader := by
    rw [empty]
    decide
  simp [abandoned, validateHeader, small]

/-- The reclaim test is passed by an object that is abandoned or could not be opened. -/
theorem reclaims_taken {t : NameTable} {cfg : LLConfig} {call : CreateCall} {object : Nat}
    (taken : t.bound cfg.name = some object)
    : reclaims t cfg call
      = (!call.opens || abandoned cfg call.judged (t.objects object)) := by
  simp only [reclaims, openSegment, taken]
  by_cases empty : (t.objects object).size = 0
  · simp [empty, abandoned_of_empty empty]
  · cases call.opens <;> simp [empty]

/-- A call is one of the listed cases: the first attempt, the reclaim test and the second
attempt are taken apart in turn.
-/
theorem createPublisher_cases (t : NameTable) (cfg : LLConfig) (call : CreateCall)
    : CreateOutcome t cfg call (createPublisher t cfg call) := by
  unfold createPublisher
  split
  · rename_i rejected
    exact .invalid (by simpa using rejected)
  rename_i accepted
  have accepted : cfg.accepted = true := by simpa using accepted
  have attempt :=
    createSegment_cases t cfg.name (computeLayout cfg).totalSize call.first
  dsimp only
  generalize createSegment t cfg.name (computeLayout cfg).totalSize call.first = first at attempt
  cases attempt with
  | refused refuses => exact .refused refuses
  | broken proceeds free fails adds => exact .broken accepted proceeds free fails adds
  | created proceeds free completes =>
      exact .created accepted free completes (installs_created t cfg call)
  | @present object proceeds taken =>
      dsimp only
      rw [reclaims_taken taken]
      split
      · rename_i spared
        simp only [Bool.not_eq_true', Bool.or_eq_false_iff, Bool.not_eq_false'] at spared
        exact .spared taken spared.1 spared.2
      rename_i reclaimed
      have reclaimed
          : call.opens = false ∨ abandoned cfg call.judged (t.objects object) = true := by
        rw [Bool.not_eq_true', Bool.not_eq_false, Bool.or_eq_true, Bool.not_eq_true']
          at reclaimed
        exact reclaimed
      cases removes : call.removes with
      | false =>
          have attempt :=
            createSegment_cases t cfg.name (computeLayout cfg).totalSize call.second
          simp only [unlink, Bool.false_eq_true, if_false]
          generalize createSegment t cfg.name _ call.second = second at attempt
          cases attempt with
          | refused | present => exact .stuck taken removes
          | broken again free | created again free => simp [taken] at free
      | true =>
          have attempt :=
            createSegment_cases (t.unbind cfg.name) cfg.name (computeLayout cfg).totalSize
              call.second
          simp only [unlink, if_true]
          generalize createSegment (t.unbind cfg.name) cfg.name _ call.second = second at attempt
          cases attempt with
          | refused refuses =>
              exact .removed accepted proceeds taken reclaimed removes refuses
          | present again still => simp at still
          | broken again free fails adds =>
              exact .rebroken accepted proceeds taken reclaimed removes again fails adds
          | created again free completes =>
              exact .recreated accepted proceeds taken reclaimed removes again completes
                (installs_created (t.unbind cfg.name) cfg call)

end ShmFrame.Names
