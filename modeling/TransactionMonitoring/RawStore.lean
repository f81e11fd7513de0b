import TransactionMonitoring.Runs

/-! The raw store: one compressed file a transaction, written once.

A call writes a temporary file beside the final path and renames it.  All calls for one path share
the name of the temporary file, and a file that is open is written to whatever its name is by then.
Where no call opens the temporary file while another call of the path has it open or is yet to
rename it, a final path has nothing or the whole payload of a call, also after a crash.

The directory maps names to inodes; a descriptor is an inode and an offset.
-/
namespace TransactionMonitoring.RawStore
open Runs

abbrev Bytes := List UInt8

/-- The path of a blob. -/
structure BlobPath where
  text : String
  shaped : text.toList.getLast? = some 'z'
deriving DecidableEq

/-- The temporary sibling. -/
def BlobPath.temp (path : BlobPath) : String := path.text ++ ".tmp"

/-- `_is_valid_tx_hash`. -/
def isValidTxHash (txHash : String) : Bool :=
  txHash.length = 64 && txHash.toList.all fun c => "0123456789abcdef".toList.contains c

/-- `_build_path`, with the day as `%Y%m%d`; nothing where it returns the empty text. -/
def buildPath (root blobPrefix network txHash day : String) : Option BlobPath :=
  if isValidTxHash txHash then
    some
      { text := "/".intercalate [root, blobPrefix, network, day, (txHash.take 2).toString, txHash] ++ ".json.gz"
        shaped := by
          rw [String.toList_append, List.getLast?_append, show ".json.gz".toList.getLast? = some 'z' by decide]
          rfl }
  else none

/-- Where a call of `_write_sync` is. -/
inductive Stage where
  | checking
  | makingDirs
  | opening
  /-- With the file open, this much of the payload is written. -/
  | writing (inode written : ℕ)
  /-- An exception is on its way; the inode and the offset of the file while it is open. -/
  | failing (file : Option (ℕ × ℕ))
  | returned
  | raised
  /-- The process died. -/
  | lost
deriving DecidableEq, Repr

structure Call where
  /-- Nothing where the hash is not well-formed. -/
  path : Option BlobPath
  /-- What the compressed document is to be. -/
  payload : Bytes
  stage : Stage
deriving DecidableEq

structure State where
  inodes : List Bytes
  directory : String → Option ℕ
  calls : List Call

def start : State := ⟨[], fun _ => none, []⟩

/-- What a reader of the name gets. -/
def State.read (state : State) (name : String) : Option Bytes := (state.directory name).bind (state.inodes[·]?)

/-- Writing at an offset; what is left out before it is zero. -/
def writeAt (content : Bytes) (offset : ℕ) (data : Bytes) : Bytes :=
  content.take offset ++ List.replicate (offset - content.length) 0 ++ data ++ content.drop (offset + data.length)

def link (directory : String → Option ℕ) (name : String) (inode : Option ℕ) (wanted : String) : Option ℕ :=
  if wanted = name then inode else directory wanted

inductive Event where
  /-- A worker takes up a call. -/
  | begin_ (blobPrefix network txHash day : String) (payload : Bytes)
  | check (call : ℕ)
  | makeDirs (call : ℕ) (raises : Bool)
  | openTemp (call : ℕ) (raises : Bool)
  /-- So many more bytes of the payload reach the file. -/
  | write (call more : ℕ)
  /-- A write raises. -/
  | fail (call : ℕ)
  /-- Closing the file after an exception writes what the compressor still has. -/
  | flush (call : ℕ) (data : Bytes)
  | close (call : ℕ)
  | rename (call : ℕ) (raises : Bool)
  | unlink (call : ℕ)
  | crash
deriving DecidableEq

/-- The call is at work. -/
def Stage.active : Stage → Bool
  | .returned | .raised | .lost => false
  | _ => true

def State.put (state : State) (index : ℕ) (call : Call) (stage : Stage) : State :=
  { state with calls := state.calls.set index { call with stage := stage } }

/-- `open(tmp_path, "w")`: the file of that name, truncated, or a new one. -/
def State.opened (state : State) (path : BlobPath) : ℕ × State :=
  match state.directory path.temp with
  | some inode => (inode, { state with inodes := state.inodes.set inode [] })
  | none => (state.inodes.length,
      { state with
        inodes := state.inodes ++ [[]]
        directory := link state.directory path.temp (some state.inodes.length) })

/-- Some bytes at the offset of a descriptor. -/
def State.written (state : State) (inode offset : ℕ) (data : Bytes) : State :=
  { state with inodes := state.inodes.modify inode fun content => writeAt content offset data }

/-- One step of a call with a path. -/
def advance (state : State) (index : ℕ) (call : Call) (path : BlobPath) : Event → Option State
  | .check _ =>
      if call.stage = .checking then
        -- write-once
        some (state.put index call (if (state.directory path.text).isSome then .returned else .makingDirs))
      else none
  | .makeDirs _ raises =>
      if call.stage = .makingDirs then some (state.put index call (if raises then .raised else .opening)) else none
  | .openTemp _ raises =>
      if call.stage = .opening then
        if raises then some (state.put index call (.failing none))
        else some ((state.opened path).2.put index call (.writing (state.opened path).1 0))
      else none
  | .write _ more =>
      match call.stage with
      | .writing inode written =>
          if written + more ≤ call.payload.length then
            some ((state.written inode written ((call.payload.drop written).take more)).put index call
              (.writing inode (written + more)))
          else none
      | _ => none
  | .fail _ =>
      match call.stage with
      | .writing inode written => some (state.put index call (.failing (some (inode, written))))
      | _ => none
  | .flush _ data =>
      match call.stage with
      | .failing (some (inode, offset)) =>
          some ((state.written inode offset data).put index call (.failing (some (inode, offset + data.length))))
      | _ => none
  | .close _ =>
      match call.stage with
      | .failing (some _) => some (state.put index call (.failing none))
      | _ => none
  | .rename _ raises =>
      match call.stage with
      | .writing _ written =>
          if written = call.payload.length then
            match state.directory path.temp with
            | some inode =>
                if raises then some (state.put index call (.failing none))
                else
                  let moved := link (link state.directory path.temp none) path.text (some inode)
                  some (({ state with directory := moved } : State).put index call .returned)
            | none => some (state.put index call (.failing none))
          else none
      | _ => none
  | .unlink _ =>
      match call.stage with
      | .failing none =>
          some (({ state with directory := link state.directory path.temp none } : State).put index call .raised)
      | _ => none
  | .begin_ .. | .crash => none

section
variable (root : String) (workers : ℕ)

def step (state : State) (event : Event) : Option State :=
  match event with
  | .begin_ blobPrefix network txHash day payload =>
      if (state.calls.countP fun call => call.stage.active) < workers then
        let path := buildPath root blobPrefix network txHash day
        some { state with
          calls := state.calls ++ [⟨path, payload, if path.isNone then .returned else .checking⟩] }
      else none
  | .crash => some { state with
      calls := state.calls.map fun call => if call.stage.active then { call with stage := .lost } else call }
  | .check index | .makeDirs index _ | .openTemp index _ | .write index _ | .fail index | .flush index _
  | .close index | .rename index _ | .unlink index =>
      state.calls[index]?.bind fun call => call.path.bind fun path => advance state index call path event

end

/-- The call has the temporary file open, or has written all of it and is yet to rename it. -/
def Stage.holds : Stage → Bool
  | .writing _ _ | .failing (some _) => true
  | _ => false

/-- No call opens the temporary file while another call of its path has it. -/
def Alone (state : State) : Event → Prop
  | .openTemp index false => ∀ call ∈ state.calls[index]?, ∀ other ∈ state.calls, other.path = call.path →
      other.stage.holds = false
  | _ => True

instance (state : State) : (event : Event) → Decidable (Alone state event)
  | .openTemp index false => inferInstanceAs (Decidable (∀ call ∈ state.calls[index]?, ∀ other ∈ state.calls,
      other.path = call.path → other.stage.holds = false))
  | .openTemp _ true | .begin_ .. | .check _ | .makeDirs .. | .write .. | .fail _ | .flush .. | .close _
  | .rename .. | .unlink _ | .crash => inferInstanceAs (Decidable True)

/-- Every final path has nothing or the whole payload of one of its calls, and something once a call has returned. -/
structure Whole (state : State) : Prop where
  blobs : ∀ path : BlobPath, state.directory path.text = none ∨
    ∃ call ∈ state.calls, call.path = some path ∧ state.read path.text = some call.payload
  returned : ∀ call ∈ state.calls, ∀ path ∈ call.path, call.stage = .returned →
    (state.directory path.text).isSome = true

/-! ## Names -/

theorem BlobPath.ext {path other : BlobPath} (same : path.text = other.text) : path = other := by
  cases path
  cases other
  simpa using same

theorem BlobPath.temp_ne_text (path other : BlobPath) : path.temp ≠ other.text := by
  intro same
  have last := other.shaped
  rw [← same, BlobPath.temp, String.toList_append, List.getLast?_append,
    show ".tmp".toList.getLast? = some 'p' by decide] at last
  exact absurd (Option.some.inj last) (by decide)

theorem BlobPath.temp_injective {path other : BlobPath} (same : path.temp = other.temp) : path = other := by
  have texts := congrArg String.toList same
  simp only [BlobPath.temp, String.toList_append, List.append_cancel_right_eq] at texts
  exact BlobPath.ext (String.toList_inj.mp texts)

/-! ## What holds in every state -/

/-- Every file has one name. -/
structure Tidy (state : State) : Prop where
  injective : ∀ name other inode, state.directory name = some inode → state.directory other = some inode →
    name = other
  bounded : ∀ name inode, state.directory name = some inode → inode < state.inodes.length

/-- The file a descriptor stands for has no name but the temporary one; it has none where another call of the path
has removed it. -/
structure Behind (state : State) (path : BlobPath) (inode : ℕ) : Prop where
  within : inode < state.inodes.length
  named : ∀ name, state.directory name = some inode → name = path.temp

/-- What a call has reason to believe of the disk. -/
def Fits (state : State) (call : Call) : Prop :=
  ∀ path ∈ call.path,
    match call.stage with
    | .writing inode written => Behind state path inode ∧ written ≤ call.payload.length ∧
        ∀ current, state.directory path.temp = some current →
          current = inode ∧ state.read path.temp = some (call.payload.take written)
    | .failing (some (inode, _)) => Behind state path inode
    | .returned => (state.directory path.text).isSome = true
    | _ => True

structure Sound (state : State) : Prop where
  tidy : Tidy state
  fits : ∀ call ∈ state.calls, Fits state call
  alone : ∀ (i j : ℕ) (call other : Call) (path : BlobPath), state.calls[i]? = some call →
    state.calls[j]? = some other → call.path = some path → other.path = some path → call.stage.holds = true →
    other.stage.holds = true → i = j
  blobs : ∀ path : BlobPath, state.directory path.text = none ∨
    ∃ call ∈ state.calls, call.path = some path ∧ state.read path.text = some call.payload

theorem Sound.whole {state : State} (sound : Sound state) : Whole state := by
  refine ⟨sound.blobs, fun call member path named returned => ?_⟩
  have fits := sound.fits call member path named
  rwa [returned] at fits

section
variable {state next : State} {index : ℕ} {call : Call} {path : BlobPath} {stage : Stage}

/-! ### What a step leaves to the other calls -/

/-- What a step leaves as it is for a call that has the temporary file of the path. -/
structure Leaves (state next : State) (path : BlobPath) : Prop where
  named : ∀ inode, Behind state path inode → Behind next path inode
  temp : ∀ current, next.directory path.temp = some current →
    state.directory path.temp = some current ∧ next.read path.temp = state.read path.temp

theorem Fits.left {other : Call} (fits : Fits state other)
    (final : ∀ own : BlobPath, (state.directory own.text).isSome = true → (next.directory own.text).isSome = true)
    (left : other.stage.holds = true → ∀ own ∈ other.path, Leaves state next own) : Fits next other := by
  intro own named
  have stored := fits own named
  cases shape : other.stage with
  | returned =>
    rw [shape] at stored
    exact final own stored
  | writing inode written =>
    rw [shape] at stored left
    obtain ⟨behind, short, content⟩ := stored
    have leaves := left rfl own named
    refine ⟨leaves.named inode behind, short, fun current linked => ?_⟩
    obtain ⟨older, same⟩ := leaves.temp current linked
    exact ⟨(content current older).1, same.trans (content current older).2⟩
  | failing file =>
    rw [shape] at stored left
    cases file with
    | none => trivial
    | some file => exact (left rfl own named).named file.1 stored
  | checking | makingDirs | opening | raised | lost => trivial

/-- The disk is as it was. -/
theorem Leaves.of_same (directory : next.directory = state.directory) (inodes : next.inodes = state.inodes)
    (own : BlobPath) : Leaves state next own := by
  refine ⟨fun inode behind => ⟨inodes ▸ behind.within, fun name linked => behind.named name (directory ▸ linked)⟩,
    fun current linked => ⟨directory ▸ linked, ?_⟩⟩
  rw [State.read, State.read, directory, inodes]

theorem Fits.same {other : Call} (fits : Fits state other) (directory : next.directory = state.directory)
    (inodes : next.inodes = state.inodes) : Fits next other :=
  fits.left (fun _ present => directory ▸ present) fun _ _ _ => .of_same directory inodes _

/-- The calls after one of them has moved on. -/
theorem mem_set_stage (found : state.calls[index]? = some call) {other : Call} (member : other ∈ state.calls)
    (reached : Stage) : ∃ later ∈ state.calls.set index { call with stage := reached },
      later.path = other.path ∧ later.payload = other.payload := by
  obtain ⟨within, rfl⟩ := List.getElem?_eq_some_iff.mp found
  obtain ⟨place, inside, rfl⟩ := List.mem_iff_getElem.mp member
  by_cases same : index = place
  · subst same
    exact ⟨_, List.mem_set within _, rfl, rfl⟩
  · refine ⟨state.calls[place], List.mem_iff_getElem.mpr ⟨place, by simpa using inside, ?_⟩, rfl, rfl⟩
    exact List.getElem_set_ne same _

/-- A step of one call keeps the invariant if the disk stays tidy, if every call still fits it, if no other call of
the path has the temporary file in hand when this one has, and if the final paths keep what they have. -/
theorem Sound.put (sound : Sound state) (found : state.calls[index]? = some call) (named : call.path = some path)
    (calls : next.calls = state.calls) (tidy : Tidy next)
    (fits : Fits next { call with stage := stage })
    (others : ∀ j other, j ≠ index → state.calls[j]? = some other → Fits next other)
    (alone : stage.holds = true → ∀ j other, j ≠ index → state.calls[j]? = some other → other.path = some path →
      other.stage.holds = false)
    (blobs : ∀ other : BlobPath, next.directory other.text = none ∨
      (state.directory other.text ≠ none ∧ next.read other.text = state.read other.text) ∨
      (other = path ∧ next.read other.text = some call.payload)) : Sound (next.put index call stage) := by
  have within : index < state.calls.length := (List.getElem?_eq_some_iff.mp found).1
  have at_ (j : ℕ) : (next.put index call stage).calls[j]? =
      if index = j then some { call with stage := stage } else state.calls[j]? := by
    rw [State.put, calls, List.getElem?_set, if_pos within]
  refine ⟨⟨tidy.injective, tidy.bounded⟩, fun other member => ?_,
    fun i j first second shared foundFirst foundSecond one two holds held => ?_, fun other => ?_⟩
  · obtain ⟨j, inside⟩ := List.mem_iff_getElem?.mp member
    rw [at_] at inside
    split at inside
    · obtain rfl := Option.some.inj inside
      exact fits.same rfl rfl
    · rename_i different
      exact (others j other (Ne.symm different) inside).same rfl rfl
  · rw [at_] at foundFirst foundSecond
    split at foundFirst <;> split at foundSecond
    · rename_i here there
      exact here.symm.trans there
    · rename_i here there
      obtain rfl := Option.some.inj foundFirst
      obtain rfl := Option.some.inj (named.symm.trans one)
      rw [alone holds j second (Ne.symm there) foundSecond two] at held
      cases held
    · rename_i here there
      obtain rfl := Option.some.inj foundSecond
      obtain rfl := Option.some.inj (named.symm.trans two)
      rw [alone held i first (Ne.symm here) foundFirst one] at holds
      cases holds
    · exact sound.alone i j first second shared foundFirst foundSecond one two holds held
  · rcases blobs other with absent | ⟨present, same⟩ | ⟨rfl, written⟩
    · exact .inl absent
    · refine .inr ?_
      obtain ⟨writer, member, path, content⟩ := (sound.blobs other).resolve_left present
      obtain ⟨later, listed, keeps, payload⟩ := mem_set_stage found member stage
      rw [← calls] at listed
      exact ⟨later, listed, keeps.trans path, same.trans (content.trans (congrArg some payload.symm))⟩
    · refine .inr ⟨{ call with stage := stage }, ?_, named, written⟩
      rw [State.put, calls]
      exact List.mem_set within _

/-- Only the stage of a call changes. -/
theorem Sound.staged (sound : Sound state) (found : state.calls[index]? = some call) (named : call.path = some path)
    (fits : Fits state { call with stage := stage }) (alone : stage.holds = true → call.stage.holds = true) :
    Sound (state.put index call stage) := by
  refine sound.put found named rfl sound.tidy fits (fun j other _ inside => ?_)
    (fun holds j other different inside same => ?_) fun other => ?_
  · exact sound.fits other (List.mem_of_getElem? inside)
  · refine Bool.eq_false_iff.mpr fun busy => different ?_
    exact sound.alone j index other call path inside found same named busy (alone holds)
  · by_cases present : state.directory other.text = none
    · exact .inl present
    · exact .inr (.inl ⟨present, rfl⟩)

/-- The call that has the file is the only one. -/
theorem Sound.others_free (sound : Sound state) (found : state.calls[index]? = some call)
    (named : call.path = some path) (holds : call.stage.holds = true) :
    ∀ j other, j ≠ index → state.calls[j]? = some other → other.path = some path → other.stage.holds = false :=
  fun j other different inside same => Bool.eq_false_iff.mpr fun busy =>
    different (sound.alone j index other call path inside found same named busy holds)

/-! ### Steps on the temporary file -/

/-- The disk changes at the temporary file of a path, and nowhere else. -/
structure AtTemp (state next : State) (path : BlobPath) : Prop where
  directory : ∀ name, name ≠ path.temp → next.directory name = state.directory name
  read : ∀ name, name ≠ path.temp → next.read name = state.read name
  grown : state.inodes.length ≤ next.inodes.length
  /-- The temporary name stands for what it stood for, or for a new file. -/
  linked : ∀ inode, next.directory path.temp = some inode →
    state.directory path.temp = some inode ∨ state.inodes.length ≤ inode

/-- What another path has is left. -/
theorem AtTemp.leaves (change : AtTemp state next path) {own : BlobPath} (other : own ≠ path) :
    Leaves state next own := by
  have apart : own.temp ≠ path.temp := fun names => other (BlobPath.temp_injective names)
  refine ⟨fun inode behind => ⟨Nat.lt_of_lt_of_le behind.within change.grown, fun name linked => ?_⟩,
    fun current linked => ⟨change.directory own.temp apart ▸ linked, change.read own.temp apart⟩⟩
  by_cases here : name = path.temp
  · subst here
    rcases change.linked inode linked with older | fresh
    · exact behind.named path.temp older
    · exact absurd behind.within (Nat.not_lt.mpr fresh)
  · exact behind.named name (change.directory name here ▸ linked)

theorem AtTemp.final (change : AtTemp state next path) (own : BlobPath)
    (present : (state.directory own.text).isSome = true) : (next.directory own.text).isSome = true := by
  rwa [change.directory own.text (path.temp_ne_text own).symm]

/-- A step on a temporary file that no other call has. -/
theorem Sound.atTemp (sound : Sound state) (found : state.calls[index]? = some call) (named : call.path = some path)
    (calls : next.calls = state.calls) (tidy : Tidy next) (change : AtTemp state next path)
    (fits : Fits next { call with stage := stage })
    (alone : ∀ j other, j ≠ index → state.calls[j]? = some other → other.path = some path →
      other.stage.holds = false) : Sound (next.put index call stage) := by
  refine sound.put found named calls tidy fits (fun j other different inside => ?_) (fun _ => alone) fun other => ?_
  · refine (sound.fits other (List.mem_of_getElem? inside)).left change.final fun holds own listed => ?_
    refine change.leaves fun same => ?_
    subst same
    rw [alone j other different inside listed] at holds
    cases holds
  · have apart : other.text ≠ path.temp := (path.temp_ne_text other).symm
    by_cases present : state.directory other.text = none
    · exact .inl ((change.directory other.text apart).trans present)
    · exact .inr (.inl ⟨present, change.read other.text apart⟩)

/-! ### What the operations do to the disk -/

theorem writeAt_end (content data : Bytes) : writeAt content content.length data = content ++ data := by
  simp [writeAt]

theorem written_tidy (tidy : Tidy state) (inode offset : ℕ) (data : Bytes) :
    Tidy (state.written inode offset data) :=
  ⟨tidy.injective, fun name other named => by
    simpa [State.written] using tidy.bounded name other named⟩

theorem written_behind {inode other : ℕ} (behind : Behind state path inode) (offset : ℕ) (data : Bytes) :
    Behind (state.written other offset data) path inode :=
  ⟨by simpa [State.written] using behind.within, behind.named⟩

/-- Writing to a file that has the temporary name or none. -/
theorem written_atTemp {inode : ℕ} (behind : Behind state path inode) (offset : ℕ) (data : Bytes) :
    AtTemp state (state.written inode offset data) path := by
  refine ⟨fun name _ => rfl, fun name apart => ?_, by simp [State.written], fun other linked => .inl linked⟩
  unfold State.read State.written
  cases held : state.directory name with
  | none => rfl
  | some other =>
    have different : inode ≠ other := fun same => apart (behind.named name (same ▸ held))
    simp only [Option.bind_some, List.getElem?_modify_ne _ _ different]

theorem link_self {directory : String → Option ℕ} {name : String} {inode : Option ℕ} :
    link directory name inode name = inode := if_pos rfl

theorem link_other {directory : String → Option ℕ} {name wanted : String} {inode : Option ℕ} (other : wanted ≠ name) :
    link directory name inode wanted = directory wanted := if_neg other

/-- An empty file under the temporary name, and a descriptor of it. -/
structure OpenedAt (state : State) (path : BlobPath) (opened : ℕ × State) : Prop where
  tidy : Tidy opened.2
  change : AtTemp state opened.2 path
  behind : Behind opened.2 path opened.1
  linked : opened.2.directory path.temp = some opened.1
  empty : opened.2.read path.temp = some []
  calls : opened.2.calls = state.calls

theorem truncated_openedAt (tidy : Tidy state) {inode : ℕ} (linked : state.directory path.temp = some inode) :
    OpenedAt state path (inode, { state with inodes := state.inodes.set inode [] }) where
  tidy := ⟨tidy.injective, fun name other named => by simpa using tidy.bounded name other named⟩
  change := by
    refine ⟨fun name _ => rfl, fun name apart => ?_, by simp, fun other linked => .inl linked⟩
    unfold State.read
    cases held : state.directory name with
    | none => rfl
    | some other =>
      have different : inode ≠ other := fun same => apart (tidy.injective name path.temp other held (same ▸ linked))
      simp only [Option.bind_some, List.getElem?_set_ne different]
  behind :=
    ⟨by simpa using tidy.bounded path.temp inode linked,
      fun name named => tidy.injective name path.temp inode named linked⟩
  linked := linked
  empty := by simp [State.read, linked, tidy.bounded path.temp inode linked]
  calls := rfl

/-- No name stands for a file that is yet to be made. -/
theorem Tidy.fresh (tidy : Tidy state) (name : String) : state.directory name ≠ some state.inodes.length :=
  fun named => Nat.lt_irrefl _ (tidy.bounded name _ named)

theorem created_tidy (tidy : Tidy state) (made : String) :
    Tidy { state with
      inodes := state.inodes ++ [[]]
      directory := link state.directory made (some state.inodes.length) } := by
  refine ⟨fun name other inode one two => ?_, fun name inode named => ?_⟩
  · dsimp only at one two
    by_cases here : name = made <;> by_cases there : other = made
    · exact here.trans there.symm
    · subst here
      rw [link_self] at one
      rw [link_other there, ← one] at two
      exact absurd two (tidy.fresh other)
    · subst there
      rw [link_self] at two
      rw [link_other here, ← two] at one
      exact absurd one (tidy.fresh name)
    · rw [link_other here] at one
      rw [link_other there] at two
      exact tidy.injective name other inode one two
  · dsimp only at named ⊢
    rw [List.length_append, List.length_singleton]
    by_cases here : name = made
    · subst here
      rw [link_self, Option.some_inj] at named
      omega
    · rw [link_other here] at named
      have older := tidy.bounded name inode named
      omega

theorem created_openedAt (tidy : Tidy state) (path : BlobPath) :
    OpenedAt state path (state.inodes.length,
      { state with
        inodes := state.inodes ++ [[]]
        directory := link state.directory path.temp (some state.inodes.length) }) where
  tidy := created_tidy tidy path.temp
  change := by
    refine ⟨fun name apart => link_other apart, fun name apart => ?_, by simp, fun inode linked => ?_⟩
    · unfold State.read
      dsimp only
      rw [link_other apart]
      cases held : state.directory name with
      | none => rfl
      | some other =>
        simp only [Option.bind_some]
        rw [List.getElem?_append_left (tidy.bounded name other held)]
    · dsimp only at linked
      rw [link_self, Option.some_inj] at linked
      exact .inr (Nat.le_of_eq linked)
  behind := ⟨by simp, fun name named => Decidable.byContradiction fun here =>
    tidy.fresh name ((link_other here).symm.trans named)⟩
  linked := link_self
  empty := by simp [State.read, link_self]
  calls := rfl

theorem openedAt_opened (tidy : Tidy state) (path : BlobPath) : OpenedAt state path (state.opened path) := by
  unfold State.opened
  split
  · rename_i inode linked
    exact truncated_openedAt tidy linked
  · exact created_openedAt tidy path

/-- A name that stands for something after a removal stood for it before. -/
theorem of_link_none {directory : String → Option ℕ} {name wanted : String} {inode : ℕ}
    (named : link directory name none wanted = some inode) : wanted ≠ name ∧ directory wanted = some inode := by
  by_cases here : wanted = name
  · subst here
    rw [link_self] at named
    cases named
  · exact ⟨here, (link_other here).symm.trans named⟩

theorem unlinked_tidy (tidy : Tidy state) (name : String) :
    Tidy { state with directory := link state.directory name none } :=
  ⟨fun first second inode one two => tidy.injective first second inode (of_link_none one).2 (of_link_none two).2,
    fun wanted inode named => tidy.bounded wanted inode (of_link_none named).2⟩

/-- A removal leaves all other paths as they are, and no call of the path believes the temporary name to be there. -/
theorem unlinked_leaves (state : State) (path own : BlobPath) :
    Leaves state { state with directory := link state.directory path.temp none } own := by
  refine ⟨fun inode behind => ⟨behind.within, fun name linked => behind.named name (of_link_none linked).2⟩,
    fun current linked => ?_⟩
  obtain ⟨apart, older⟩ := of_link_none linked
  refine ⟨older, ?_⟩
  unfold State.read
  dsimp only
  rw [link_other apart]

/-- The directory after a rename. -/
theorem of_renamed (tidy : Tidy state) {inode : ℕ} (behind : state.directory path.temp = some inode) {name : String}
    {other : ℕ} (named : link (link state.directory path.temp none) path.text (some inode) name = some other) :
    (name = path.text ∧ other = inode) ∨
      (name ≠ path.text ∧ name ≠ path.temp ∧ other ≠ inode ∧ state.directory name = some other) := by
  by_cases here : name = path.text
  · subst here
    rw [link_self, Option.some_inj] at named
    exact .inl ⟨rfl, named.symm⟩
  · rw [link_other here] at named
    obtain ⟨apart, older⟩ := of_link_none named
    exact .inr ⟨here, apart, fun same => apart (tidy.injective name path.temp other older (same ▸ behind)), older⟩

theorem renamed_tidy (tidy : Tidy state) {inode : ℕ} (behind : state.directory path.temp = some inode) :
    Tidy { state with directory := link (link state.directory path.temp none) path.text (some inode) } := by
  refine ⟨fun first second other one two => ?_, fun name other named => ?_⟩
  · rcases of_renamed tidy behind one with ⟨here, moved⟩ | ⟨-, -, distinct, older⟩ <;>
      rcases of_renamed tidy behind two with ⟨there, same⟩ | ⟨-, -, apart, elder⟩
    · exact here.trans there.symm
    · exact absurd moved apart
    · exact absurd same distinct
    · exact tidy.injective first second other older elder
  · rcases of_renamed tidy behind named with ⟨-, rfl⟩ | ⟨-, -, -, older⟩
    · exact tidy.bounded path.temp other behind
    · exact tidy.bounded name other older

/-! ### The steps of a call -/

theorem Sound.opened (sound : Sound state) (found : state.calls[index]? = some call) (named : call.path = some path)
    (alone : ∀ other ∈ state.calls, other.path = some path → other.stage.holds = false) :
    Sound ((state.opened path).2.put index call (.writing (state.opened path).1 0)) := by
  obtain ⟨tidy, change, behind, linked, empty, calls⟩ := openedAt_opened sound.tidy path
  refine sound.atTemp found named calls tidy change (fun own listed => ?_)
    fun j other _ inside same => alone other (List.mem_of_getElem? inside) same
  obtain rfl := Option.some.inj (named.symm.trans listed)
  exact ⟨behind, Nat.zero_le _, fun current same => ⟨Option.some.inj (same.symm.trans linked), by simpa using empty⟩⟩

theorem Sound.written (sound : Sound state) (found : state.calls[index]? = some call) (named : call.path = some path)
    {inode written more : ℕ} (at_ : call.stage = .writing inode written)
    (short : written + more ≤ call.payload.length) :
    Sound ((state.written inode written ((call.payload.drop written).take more)).put index call
      (.writing inode (written + more))) := by
  have fits := sound.fits call (List.mem_of_getElem? found) path named
  rw [at_] at fits
  obtain ⟨behind, _, content⟩ := fits
  refine sound.atTemp found named rfl (written_tidy sound.tidy _ _ _) (written_atTemp behind _ _) (fun own listed => ?_)
    (sound.others_free found named (by rw [at_]; rfl))
  obtain rfl := Option.some.inj (named.symm.trans listed)
  refine ⟨written_behind behind _ _, short, fun current linked => ?_⟩
  obtain ⟨rfl, stored⟩ := content current linked
  refine ⟨rfl, ?_⟩
  -- the descriptor stands at the end of what it has written
  have whole := writeAt_end (call.payload.take written) ((call.payload.drop written).take more)
  rw [List.length_take, Nat.min_eq_left (by omega), ← List.take_add] at whole
  have linked : state.directory path.temp = some current := linked
  rw [State.read, linked, Option.bind_some] at stored
  rw [State.read, State.written, linked, Option.bind_some, List.getElem?_modify_eq, stored]
  exact congrArg some whole

theorem Sound.flushed (sound : Sound state) (found : state.calls[index]? = some call) (named : call.path = some path)
    {inode offset : ℕ} (at_ : call.stage = .failing (some (inode, offset))) (data : Bytes) :
    Sound ((state.written inode offset data).put index call (.failing (some (inode, offset + data.length)))) := by
  have behind := sound.fits call (List.mem_of_getElem? found) path named
  rw [at_] at behind
  refine sound.atTemp found named rfl (written_tidy sound.tidy _ _ _) (written_atTemp behind _ _) (fun own listed => ?_)
    (sound.others_free found named (by rw [at_]; rfl))
  obtain rfl := Option.some.inj (named.symm.trans listed)
  exact written_behind behind _ _

/-- The rename gives the final path the whole payload. -/
theorem Sound.renamed (sound : Sound state) (found : state.calls[index]? = some call) (named : call.path = some path)
    {inode current : ℕ} (at_ : call.stage = .writing inode call.payload.length)
    (linked : state.directory path.temp = some current) :
    Sound (({ state with
      directory := link (link state.directory path.temp none) path.text (some current) } : State).put index call
        .returned) := by
  have fits := sound.fits call (List.mem_of_getElem? found) path named
  rw [at_] at fits
  obtain ⟨-, -, content⟩ := fits
  have stored := (content current linked).2
  have free := sound.others_free found named (by rw [at_]; rfl)
  refine sound.put found named rfl (renamed_tidy sound.tidy linked) (fun own listed => ?_)
    (fun j other different inside => ?_) (fun holds => nomatch holds) fun other => ?_
  · obtain rfl := Option.some.inj (named.symm.trans listed)
    show (link _ path.text _ path.text).isSome = true
    rw [link_self, Option.isSome_some]
  · refine (sound.fits other (List.mem_of_getElem? inside)).left (fun own present => ?_) fun holds own listed => ?_
    · show (link _ path.text _ own.text).isSome = true
      by_cases same : own.text = path.text
      · rw [same, link_self, Option.isSome_some]
      · rwa [link_other same, link_other (path.temp_ne_text own).symm]
    · have distinct : own ≠ path := fun same => by
        rw [free j other different inside (same ▸ listed)] at holds
        cases holds
      have apart : own.temp ≠ path.temp := fun names => distinct (BlobPath.temp_injective names)
      refine ⟨fun inode behind => ⟨behind.within, fun name moved => ?_⟩, fun target moved => ?_⟩
      · rcases of_renamed sound.tidy linked moved with ⟨-, rfl⟩ | ⟨-, -, -, older⟩
        · exact absurd (behind.named path.temp linked).symm apart
        · exact behind.named name older
      · rcases of_renamed sound.tidy linked moved with ⟨text, -⟩ | ⟨text, _, -, older⟩
        · exact absurd text (BlobPath.temp_ne_text own path)
        · refine ⟨older, ?_⟩
          show (link _ path.text _ own.temp).bind _ = (state.directory own.temp).bind _
          rw [link_other text, link_other apart]
  · by_cases same : other = path
    · subst same
      refine .inr (.inr ⟨rfl, ?_⟩)
      show (link _ other.text _ other.text).bind _ = _
      rw [State.read, linked, Option.bind_some, List.take_length] at stored
      rw [link_self, Option.bind_some]
      exact stored
    · have text : other.text ≠ path.text := fun texts => same (BlobPath.ext texts)
      have apart : other.text ≠ path.temp := (path.temp_ne_text other).symm
      have stays : link (link state.directory path.temp none) path.text (some current) other.text =
          state.directory other.text := by rw [link_other text, link_other apart]
      by_cases present : state.directory other.text = none
      · exact .inl (stays.trans present)
      · refine .inr (.inl ⟨present, ?_⟩)
        show (link _ path.text _ other.text).bind _ = (state.directory other.text).bind _
        rw [stays]

theorem Sound.unlinked (sound : Sound state) (found : state.calls[index]? = some call) (named : call.path = some path) :
    Sound (({ state with directory := link state.directory path.temp none } : State).put index call .raised) := by
  have stays (own : BlobPath) : link state.directory path.temp none own.text = state.directory own.text :=
    link_other (path.temp_ne_text own).symm
  refine sound.put found named rfl (unlinked_tidy sound.tidy path.temp) (fun _ _ => trivial)
    (fun j other _ inside => ?_) (fun holds => nomatch holds) fun other => ?_
  · refine (sound.fits other (List.mem_of_getElem? inside)).left (fun own present => ?_) fun _ own _ => ?_
    · show (link _ path.temp none own.text).isSome = true
      rwa [stays]
    · exact unlinked_leaves state path own
  · by_cases present : state.directory other.text = none
    · exact .inl ((stays other).trans present)
    · refine .inr (.inl ⟨present, ?_⟩)
      show (link _ path.temp none other.text).bind _ = (state.directory other.text).bind _
      rw [stays]

/-- What a step of a call can do. -/
inductive Advances (state : State) (index : ℕ) (call : Call) (path : BlobPath) (event : Event) : State → Prop where
  | staged {stage : Stage} (idle : stage.holds = false)
      (present : stage = .returned → (state.directory path.text).isSome = true) :
      Advances state index call path event (state.put index call stage)
  | failed {inode written : ℕ} (at_ : call.stage = .writing inode written) :
      Advances state index call path event (state.put index call (.failing (some (inode, written))))
  | opened {other : ℕ} (opens : event = .openTemp other false) :
      Advances state index call path event
        ((state.opened path).2.put index call (.writing (state.opened path).1 0))
  | wrote {inode written more : ℕ} (at_ : call.stage = .writing inode written)
      (short : written + more ≤ call.payload.length) :
      Advances state index call path event
        ((state.written inode written ((call.payload.drop written).take more)).put index call
          (.writing inode (written + more)))
  | flushed {inode offset : ℕ} {data : Bytes} (at_ : call.stage = .failing (some (inode, offset))) :
      Advances state index call path event
        ((state.written inode offset data).put index call (.failing (some (inode, offset + data.length))))
  | renamed {inode current : ℕ} (at_ : call.stage = .writing inode call.payload.length)
      (linked : state.directory path.temp = some current) :
      Advances state index call path event
        (({ state with
          directory := link (link state.directory path.temp none) path.text (some current) } : State).put index call
            .returned)
  | unlinked :
      Advances state index call path event
        (({ state with directory := link state.directory path.temp none } : State).put index call .raised)

theorem advances_of_advance {event : Event} (advanced : advance state index call path event = some next) :
    Advances state index call path event next := by
  cases event with
  | begin_ | crash => cases advanced
  | check =>
    dsimp only [advance] at advanced
    split at advanced
    · obtain rfl := Option.some.inj advanced
      by_cases present : (state.directory path.text).isSome = true
      · rw [if_pos present]
        exact .staged rfl fun _ => present
      · rw [if_neg present]
        exact .staged rfl nofun
    · cases advanced
  | makeDirs other raises =>
    dsimp only [advance] at advanced
    split at advanced
    · obtain rfl := Option.some.inj advanced
      cases raises with
      | true => exact .staged rfl nofun
      | false => exact .staged rfl nofun
    · cases advanced
  | openTemp other raises =>
    dsimp only [advance] at advanced
    split at advanced
    · cases raises with
      | true =>
        obtain rfl := Option.some.inj advanced
        exact .staged rfl nofun
      | false =>
        obtain rfl := Option.some.inj advanced
        exact .opened rfl
    · cases advanced
  | write other more =>
    dsimp only [advance] at advanced
    split at advanced
    · rename_i at_
      split at advanced
      · rename_i short
        obtain rfl := Option.some.inj advanced
        exact .wrote at_ short
      · cases advanced
    · cases advanced
  | fail other =>
    dsimp only [advance] at advanced
    split at advanced
    · rename_i at_
      obtain rfl := Option.some.inj advanced
      exact .failed at_
    · cases advanced
  | rename other raises =>
    dsimp only [advance] at advanced
    split at advanced
    · rename_i at_
      split at advanced
      · rename_i full
        split at advanced
        · rename_i linked
          cases raises with
          | true =>
            obtain rfl := Option.some.inj advanced
            exact .staged rfl nofun
          | false =>
            obtain rfl := Option.some.inj advanced
            exact .renamed (full ▸ at_) linked
        · obtain rfl := Option.some.inj advanced
          exact .staged rfl nofun
      · cases advanced
    · cases advanced
  | flush other data =>
    dsimp only [advance] at advanced
    split at advanced
    · rename_i at_
      obtain rfl := Option.some.inj advanced
      exact .flushed at_
    · cases advanced
  | close other =>
    dsimp only [advance] at advanced
    split at advanced
    · obtain rfl := Option.some.inj advanced
      exact .staged rfl nofun
    · cases advanced
  | unlink other =>
    dsimp only [advance] at advanced
    split at advanced
    · obtain rfl := Option.some.inj advanced
      exact .unlinked
    · cases advanced

theorem Sound.advance (sound : Sound state) (found : state.calls[index]? = some call) (named : call.path = some path)
    {event : Event} (alone : (∃ other, event = .openTemp other false) →
      ∀ other ∈ state.calls, other.path = some path → other.stage.holds = false)
    (advanced : RawStore.advance state index call path event = some next) : Sound next := by
  cases advances_of_advance advanced with
  | @staged stage idle present =>
    refine sound.staged found named (fun own listed => ?_) fun holds => by rw [idle] at holds; cases holds
    obtain rfl := Option.some.inj (named.symm.trans listed)
    cases stage with
    | returned => exact present rfl
    | writing _ _ => cases idle
    | failing file =>
      cases file with
      | none => trivial
      | some file => cases idle
    | checking | makingDirs | opening | raised | lost => trivial
  | failed at_ =>
    have fits := sound.fits call (List.mem_of_getElem? found) path named
    rw [at_] at fits
    refine sound.staged found named (fun own listed => ?_) fun _ => by rw [at_]; rfl
    obtain rfl := Option.some.inj (named.symm.trans listed)
    exact fits.1
  | opened opens => exact sound.opened found named (alone ⟨_, opens⟩)
  | wrote at_ short => exact sound.written found named at_ short
  | flushed at_ => exact sound.flushed found named at_ _
  | renamed at_ linked => exact sound.renamed found named at_ linked
  | unlinked => exact sound.unlinked found named

end

/-! ## Runs -/

theorem sound_start : Sound start :=
  ⟨⟨nofun, nofun⟩, nofun, by simp [start], fun _ => .inl rfl⟩

theorem Sound.begun {state : State} (sound : Sound state) (path : Option BlobPath) (payload : Bytes) :
    Sound { state with calls := state.calls ++ [⟨path, payload, if path.isNone then .returned else .checking⟩] } := by
  have idle : (if path.isNone then Stage.returned else .checking).holds = false := by split <;> rfl
  refine ⟨⟨sound.tidy.injective, sound.tidy.bounded⟩, fun call member => ?_,
    fun i j first second own foundFirst foundSecond one two holds held => ?_, fun other => ?_⟩
  · rcases List.mem_append.mp member with member | member
    · exact (sound.fits call member).same rfl rfl
    · obtain rfl := List.mem_singleton.mp member
      intro own listed
      cases path with
      | none => cases listed
      | some _ => trivial
  · have older {place : ℕ} {call : Call} (found : (state.calls ++ [⟨path, payload,
        if path.isNone then .returned else .checking⟩])[place]? = some call) (busy : call.stage.holds = true) :
        state.calls[place]? = some call := by
      rw [List.getElem?_append] at found
      split at found
      · exact found
      · obtain rfl := List.mem_singleton.mp (List.mem_of_getElem? found)
        rw [idle] at busy
        cases busy
    exact sound.alone i j first second own (older foundFirst holds) (older foundSecond held) one two holds held
  · refine (sound.blobs other).imp_right ?_
    rintro ⟨call, member, content⟩
    exact ⟨call, List.mem_append_left _ member, content⟩

/-- A crash leaves the disk, and no call at work. -/
theorem Sound.crashed {state : State} (sound : Sound state) :
    Sound { state with
      calls := state.calls.map fun call => if call.stage.active then { call with stage := .lost } else call } := by
  have free {call : Call} (member : call ∈ state.calls.map fun call =>
      if call.stage.active then { call with stage := .lost } else call) : call.stage.holds = false := by
    obtain ⟨older, -, rfl⟩ := List.mem_map.mp member
    split
    · rfl
    · rename_i idle
      cases shape : older.stage with
      | checking | makingDirs | opening | writing | failing =>
        rw [shape] at idle
        exact absurd rfl idle
      | returned | raised | lost => rfl
  refine ⟨⟨sound.tidy.injective, sound.tidy.bounded⟩, fun call member => ?_,
    fun i j first second own foundFirst _ _ _ holds => ?_, fun other => ?_⟩
  · obtain ⟨older, listed, rfl⟩ := List.mem_map.mp member
    split
    · exact fun _ _ => trivial
    · exact (sound.fits older listed).same rfl rfl
  · rw [free (List.mem_of_getElem? foundFirst)] at holds
    cases holds
  · refine (sound.blobs other).imp_right ?_
    rintro ⟨call, member, named, content⟩
    refine ⟨_, List.mem_map_of_mem member, ?_⟩
    split
    · exact ⟨named, content⟩
    · exact ⟨named, content⟩

theorem Sound.after_step {root : String} {workers : ℕ} {state next : State} {event : Event} (alone : Alone state event)
    (sound : Sound state) (stepped : step root workers state event = some next) : Sound next := by
  have own (index : ℕ) (free : (∃ other, event = .openTemp other false) → ∀ call ∈ state.calls[index]?,
      ∀ other ∈ state.calls, other.path = call.path → other.stage.holds = false)
      (moved : (state.calls[index]?.bind fun call => call.path.bind fun path =>
        RawStore.advance state index call path event) = some next) : Sound next := by
    obtain ⟨call, found, moved⟩ := Option.bind_eq_some_iff.mp moved
    obtain ⟨path, named, moved⟩ := Option.bind_eq_some_iff.mp moved
    exact sound.advance found named (fun opens other member same =>
      free opens call found other member (same.trans named.symm)) moved
  cases event with
  | begin_ blobPrefix network txHash day payload =>
    dsimp only [step] at stepped
    split at stepped
    · obtain rfl := Option.some.inj stepped
      exact sound.begun _ payload
    · cases stepped
  | crash =>
    obtain rfl := Option.some.inj stepped
    exact sound.crashed
  | openTemp index raises =>
    refine own index (fun opens => ?_) stepped
    obtain ⟨_, ⟨⟩⟩ := opens
    exact alone
  | check index | makeDirs index | write index | fail index | flush index | close index | rename index | unlink index =>
    exact own index (fun ⟨_, opens⟩ => nomatch opens) stepped

/-- **In every run in which no call opens the temporary file of a path while another call has it, every final path
has nothing or the whole payload of one of its calls, and something once a call has returned.** -/
theorem blobs_whole (root : String) (workers : ℕ) (events : List Event) (last : State)
    (alone : EveryStep (step root workers) Alone start events)
    (reached : run (step root workers) start events = some last) : Whole last :=
  (invariant_of_step (step root workers) Sound.after_step sound_start alone reached).whole

private def someHash : String := "00d1ae5f00d1ae5f00d1ae5f00d1ae5f00d1ae5f00d1ae5f00d1ae5f00d1ae5f"

private def finalPath : BlobPath where
  text := "raw/mempool/preprod/20260301/00/" ++ someHash ++ ".json.gz"
  shaped := by decide +kernel

private def beginOne : Event := .begin_ "mempool" "preprod" someHash "20260301" [31, 139, 8]

private theorem seen_of_run (events : List Event) (content : Option Bytes) (payloads : List Bytes)
    (seen : ((run (step "raw" 2) start events).map fun last =>
      (last.read finalPath.text, last.calls.map (·.payload))) = some (content, payloads)) :
    ∃ last, run (step "raw" 2) start events = some last ∧ last.read finalPath.text = content ∧
      last.calls.map (·.payload) = payloads := by
  obtain ⟨last, reached, same⟩ := Option.map_eq_some_iff.mp seen
  exact ⟨last, reached, congrArg Prod.fst same, congrArg Prod.snd same⟩

/-- A crash after part of the payload, a write that raises with another call past its check, and a whole write. -/
private def oneByOne : List Event :=
  [beginOne, .check 0, .makeDirs 0 false, .openTemp 0 false, .write 0 2, .crash,
    beginOne, beginOne, .check 1, .check 2, .makeDirs 1 false, .makeDirs 2 false, .openTemp 1 false, .write 1 1,
    .fail 1, .flush 1 [0], .close 1, .openTemp 2 false, .write 2 3, .rename 2 false, .unlink 1]

theorem blobs_whole_one_by_one : ∃ last, run (step "raw" 2) start oneByOne = some last ∧
    last.read finalPath.text = some [31, 139, 8] ∧ Whole last := by
  obtain ⟨last, reached, content, -⟩ := seen_of_run oneByOne (some [31, 139, 8]) (List.replicate 3 [31, 139, 8])
    (by decide +kernel)
  refine ⟨last, reached, content, blobs_whole "raw" 2 oneByOne last ?_ reached⟩
  decide +kernel

/-- The second call opens, and so truncates, what the first has written and is about to rename. -/
private def crossed : List Event :=
  [beginOne, beginOne, .check 0, .check 1, .makeDirs 0 false, .makeDirs 1 false, .openTemp 0 false, .write 0 3,
    .openTemp 1 false, .rename 0 false, .crash, beginOne, .check 2]

/-- After the crash the empty blob stays: the next call finds the path there. -/
theorem empty_blob_stays : ∃ last, run (step "raw" 2) start crossed = some last ∧
    last.read finalPath.text = some [] ∧ ¬Whole last := by
  obtain ⟨last, reached, content, payloads⟩ := seen_of_run crossed (some []) (List.replicate 3 [31, 139, 8])
    (by decide +kernel)
  refine ⟨last, reached, content, fun whole => ?_⟩
  rcases whole.blobs finalPath with absent | ⟨call, member, -, stored⟩
  · rw [State.read, absent] at content
    cases content
  · have listed := List.mem_map_of_mem (f := (·.payload)) member
    rw [payloads, ← Option.some.inj (content.symm.trans stored)] at listed
    simp at listed

end TransactionMonitoring.RawStore
