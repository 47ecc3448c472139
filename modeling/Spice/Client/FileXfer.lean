import Spice.Lib.Run
import Mathlib.Data.List.Nodup

namespace Spice
namespace Client
namespace FileXfer

open Lib

/-!
# File transfers

A transfer opens a file, asks for its size and then reads it in pieces, each of which is queued
for the agent and flushed before the next is read.  The operations run on their own and report
through callbacks, and the agent may send its status messages at any time.  All of them share one
flag, which says that an operation is pending, and one error.

Tasks are known by their place in the order they were started.  A task that was freed must not be
used any more, and what it did stays to be looked at.  Cancelling makes the operation that is
pending fail.
-/

/-! ## A task -/

def chunkSize : Nat := 2048 * 32

/-- An error of an operation, or one that the client makes. -/
inductive XferError
  | io (code : Nat)
  | client (text : String)
  | unhandled (result : UInt32)
deriving DecidableEq, Repr

inductive Operation
  | opening
  | query
  | reading
  | flush
  | close
deriving DecidableEq, Repr

/-- A message that is queued for the agent; for data, with whether there was an error before. -/
inductive Queued
  | start
  | data (bytes : List UInt8) (late : Bool)
  | status (result : UInt32)
deriving DecidableEq, Repr

/-- What an operation reports: an error, the size of the file and whether the start message can be made, or bytes. -/
structure Result where
  error : Option XferError
  size : UInt64
  keyError : Option XferError
  bytes : List UInt8
  small : bytes.length ≤ chunkSize

/-- `SpiceFileXferTask`, with the operations that are outstanding, the bytes read, the messages queued, and how often
and with what it was reported and freed. -/
structure Task where
  id : UInt32
  pending : Bool
  fileStream : Bool
  error : Option XferError
  readBytes : UInt64
  fileSize : UInt64
  outstanding : List Operation
  bytes : List UInt8
  queued : List Queued
  reported : List (Option XferError)
  frees : Nat
deriving DecidableEq, Repr

namespace Task

variable (task : Task)

/-- An operation is started, and the flag is set. -/
def await (operation : Operation) : Task :=
  { task with outstanding := task.outstanding ++ [operation], pending := true }

/-- `file_xfer_close_cb`, which frees the task. -/
def closeCb : Task := { task with reported := task.reported ++ [task.error], frees := task.frees + 1 }

def withError (error : Option XferError) : Task :=
  { task with error := if task.error.isSome then task.error else error }

def completed (error : Option XferError) : Task :=
  let failed := task.withError error
  if failed.pending then failed else if failed.fileStream then failed.await .close else failed.closeCb

/-- `file_xfer_continue_read`, which needs the stream. -/
def continueRead : Option Task := if task.fileStream then some (task.await .reading) else none

def readAsyncCb (result : Result) : Task :=
  let opened := { task with pending := false, fileStream := result.error.isNone }
  if result.error.isSome || task.error.isSome then opened.completed result.error else opened.await .query

def infoAsyncCb (result : Result) : Task :=
  let asked := { task with pending := false }
  if result.error.isSome || task.error.isSome then asked.completed result.error
  else
    let sized := { asked with fileSize := result.size }
    if result.keyError.isSome then sized.completed result.keyError
    else { sized with queued := sized.queued ++ [.start] }

/-- `file_xfer_read_cb`.  With an error the count is -1, and to queue so much reads outside of the buffer. -/
def readCb (result : Result) : Option Task :=
  let count := if result.error.isSome then (-1 : Int) else result.bytes.length
  let done := { task with
    pending := false
    bytes := if result.error.isSome then task.bytes else task.bytes ++ result.bytes }
  if task.error.isSome then some (done.completed result.error)
  else if 0 < count ∨ task.fileSize = 0 then
    if count < 0 then none
    else
      let sent := { done with
        readBytes := done.readBytes + UInt64.ofNat result.bytes.length
        queued := done.queued ++ [.data result.bytes task.error.isSome] }
      if count = 0 then some sent else some (sent.await .flush)
  else if result.error.isSome then
    let told : Task := { done with queued := done.queued ++ [.status 2] }
    some (told.completed result.error)
  else some done

/-- `file_xfer_data_flushed_cb`; a flush reports no error. -/
def dataFlushedCb : Option Task :=
  let flushed := { task with pending := false }
  if task.error.isSome then some (flushed.completed none) else flushed.continueRead

/-- `file_xfer_handle_status` for the task. -/
def handleStatus (result : UInt32) : Option Task :=
  if result = 0 then
    if task.pending then some (task.completed (some (.client "transfer received CAN_SEND_DATA in pending state")))
    else task.continueRead
  else if result = 1 then some (task.completed (some (.client "transfer is cancelled by spice agent")))
  else if result = 2 then some (task.completed (some (.client "some errors occurred in the spice agent")))
  else if result = 3 then
    some (task.completed (if task.pending then some (.client "transfer received success in pending state") else none))
  else some (task.completed (some (.unhandled result)))

def callback (operation : Operation) (result : Result) : Option Task :=
  match operation with
  | .opening => some (task.readAsyncCb result)
  | .query => some (task.infoAsyncCb result)
  | .reading => task.readCb result
  | .flush => task.dataFlushedCb
  | .close => some task.closeCb

end Task

/-- A task that `file_xfer_send_start_msg_async` makes. -/
def newTask (id : UInt32) : Task := Task.await ⟨id, false, false, none, 0, 0, [], [], [], [], 0⟩ .opening

/-! ## The channel -/

/-- All tasks that were started, `file_xfer_tasks` as ids with the places of their tasks, and `xfer_id`. -/
structure MainChannel where
  tasks : List Task
  table : List (UInt32 × Nat)
  xferId : UInt32
deriving DecidableEq, Repr

/-- A transfer starts, the operation of a task at a place among those outstanding reports, the agent sends a status, or
the agent is disconnected. -/
inductive Op
  | start
  | complete (place index : Nat) (result : Result)
  | status (id result : UInt32)
  | resetAgent

namespace MainChannel

variable (channel : MainChannel)

/-- A task does something; one that was freed must not.  When it is freed its id is removed from the table. -/
def act (place : Nat) (task : Task) (does : Option Task) : Option MainChannel :=
  if task.frees ≠ 0 then none
  else
    does.map fun next =>
      { channel with
        tasks := channel.tasks.set place next
        table := if next.frees ≠ 0 then channel.table.filter fun entry => entry.1 ≠ task.id else channel.table }

/-- A task of `spice_main_channel_reset_agent`. -/
def resetTask (place : Nat) : Option MainChannel :=
  match channel.tasks[place]? with
  | none => none
  | some task => channel.act place task (some (task.completed (some (.client "Agent connection closed"))))

/-- An operation of a task reports. -/
def complete (place index : Nat) (result : Result) : Option MainChannel :=
  match channel.tasks[place]? with
  | none => some channel
  | some task =>
      match task.outstanding[index]? with
      | none => some channel
      | some operation =>
          channel.act place task
            ({ task with outstanding := task.outstanding.eraseIdx index }.callback operation result)

def handleStatus (id result : UInt32) : Option MainChannel :=
  match channel.table.lookup id with
  | none => some channel
  | some place =>
      match channel.tasks[place]? with
      | none => none
      | some task => channel.act place task (task.handleStatus result)

def step : Op -> Option MainChannel
  | .start => some
      { tasks := channel.tasks ++ [newTask (channel.xferId + 1)]
        table := (channel.xferId + 1, channel.tasks.length) :: channel.table.filter fun entry =>
          entry.1 ≠ channel.xferId + 1
        xferId := channel.xferId + 1 }
  | .complete place index result => channel.complete place index result
  | .status id result => channel.handleStatus id result
  | .resetAgent => channel.table.foldlM (fun channel entry => channel.resetTask entry.2) channel

def empty (xferId : UInt32) : MainChannel := ⟨[], [], xferId⟩

end MainChannel

/-! ## How transfers end -/

def Queued.payload : Queued -> List UInt8
  | .data bytes _ => bytes
  | _ => []

/-- No message of data is longer than a piece or was queued after an error. -/
def Queued.Fine : Queued -> Prop
  | .data bytes late => bytes.length ≤ chunkSize ∧ late = false
  | _ => True

/-- A task is reported once and freed with nothing outstanding, it never has two operations outstanding, and what was
queued without an error is what was read. -/
structure Orderly (task : Task) : Prop where
  once : task.reported.length = task.frees ∧ task.frees ≤ 1
  freed : task.frees = 1 -> task.outstanding = []
  one : task.outstanding.length ≤ 1
  fine : forall message, message ∈ task.queued -> message.Fine
  whole : task.reported = [none] -> task.queued.flatMap Queued.payload = task.bytes

/-- When the agent reports an error the task ends with the operations that are outstanding, whatever they report. -/
def Ends (channel : MainChannel) (place : Nat) (task : Task) : Prop := forall first second,
  Exists fun final => run MainChannel.step channel [.status task.id 2, .complete place 0 first,
    .complete place 0 second] =
    some final ∧ Exists fun last => final.tasks[place]? = some last ∧ last.frees = 1 ∧ last.reported.length = 1

/-- All tasks are in order, and those that were not freed can end. -/
structure InOrder (channel : MainChannel) : Prop where
  orderly : forall task, task ∈ channel.tasks -> Orderly task
  ends : forall place task, channel.tasks[place]? = some task -> task.frees = 0 -> Ends channel place task

/-- No task gets the id of one that is not freed, and reading a file of size 0 fails only after another error. -/
def Careful (channel : MainChannel) : Op -> Prop
  | .start => channel.xferId + 1 ∉ channel.table.map Prod.fst
  | .complete place index result => forall task, channel.tasks[place]? = some task ->
      task.outstanding[index]? = some .reading -> task.error = none -> task.fileSize = 0 -> result.error = none
  | _ => True

/-! ## One task -/

/-- A task between its callbacks: it was freed, or one operation is outstanding, or it waits for the agent. -/
inductive Phase (task : Task) : Prop
  | freed (isFreed : task.frees = 1) (nothing : task.outstanding = []) (reported : task.reported = [task.error])
  | waits (live : task.frees = 0) (reported : task.reported = []) (nothing : task.outstanding = [])
      (idle : task.pending = false) (stream : task.fileStream = true) (fine : task.error = none)
  | busy (operation : Operation) (live : task.frees = 0) (reported : task.reported = [])
      (one : task.outstanding = [operation]) (pending : task.pending = true)
      (stream : operation ≠ .opening -> task.fileStream = true)

/-- What was queued is what was read as long as there is no error. -/
structure Data (task : Task) : Prop where
  fine : forall message, message ∈ task.queued -> message.Fine
  whole : task.error = none -> task.queued.flatMap Queued.payload = task.bytes

/-- A task in a callback: its operation is over. -/
structure Idle (task : Task) : Prop where
  live : task.frees = 0
  reported : task.reported = []
  nothing : task.outstanding = []
  idle : task.pending = false

/-- A task after a callback. -/
structure Kept (id : UInt32) (task : Task) : Prop where
  phase : Phase task
  data : Data task
  id : task.id = id

variable {operation : Operation}

section Tasks

variable {task : Task} {error : Option XferError} {result : Result}

theorem Data.withError (data : Data task) : Data (task.withError error) where
  fine := data.fine
  whole := by
    intro none
    refine data.whole ?_
    unfold Task.withError at none
    dsimp only at none
    split at none
    · exact none
    · rename_i notSome
      exact Option.not_isSome_iff_eq_none.mp notSome

theorem Idle.await (idle : Idle task) (data : Data task)
    (stream : operation ≠ .opening -> task.fileStream = true) : Kept task.id (task.await operation) where
  phase := .busy operation idle.live idle.reported (by unfold Task.await; rw [idle.nothing, List.nil_append]) rfl stream
  data := ⟨data.fine, data.whole⟩
  id := rfl

theorem Idle.closeCb (idle : Idle task) (data : Data task) : Kept task.id task.closeCb where
  phase := by
    refine .freed ?_ idle.nothing ?_
    · unfold Task.closeCb
      rw [idle.live]
    · unfold Task.closeCb
      rw [idle.reported, List.nil_append]
  data := ⟨data.fine, data.whole⟩
  id := rfl

theorem Idle.completed (idle : Idle task) (data : Data task) : Kept task.id (task.completed error) := by
  have failed : Idle (task.withError error) := ⟨idle.live, idle.reported, idle.nothing, idle.idle⟩
  unfold Task.completed
  dsimp only
  rw [if_neg (by rw [failed.idle]; exact nofun)]
  split
  · rename_i stream
    exact failed.await data.withError fun _ => stream
  · exact failed.closeCb data.withError

theorem Idle.continueRead (idle : Idle task) (data : Data task) (stream : task.fileStream = true) :
    Exists fun next => task.continueRead = some next ∧ Kept task.id next :=
  ⟨_, if_pos stream, idle.await data fun _ => stream⟩

/-- A task whose operation is over, before its callback. -/
structure Over (operation : Operation) (task : Task) : Prop where
  live : task.frees = 0
  reported : task.reported = []
  nothing : task.outstanding = []
  stream : operation ≠ .opening -> task.fileStream = true

theorem Over.idle {stream : Bool} {size : UInt64} {bytes : List UInt8} {queued : List Queued}
    (isOver : Over operation task) : Idle { task with
      pending := false
      fileStream := stream
      fileSize := size
      bytes := bytes
      queued := queued } := ⟨isOver.live, isOver.reported, isOver.nothing, rfl⟩

theorem Over.readAsyncCb (isOver : Over .opening task) (data : Data task) : Kept task.id (task.readAsyncCb result) := by
  unfold Task.readAsyncCb
  dsimp only
  have opened : Data { task with pending := false, fileStream := result.error.isNone } := ⟨data.fine, data.whole⟩
  split
  · exact isOver.idle.completed opened
  · rename_i fine
    rw [Bool.or_eq_true, not_or] at fine
    exact isOver.idle.await opened fun _ => Option.isNone_iff_eq_none.mpr (Option.not_isSome_iff_eq_none.mp fine.1)

theorem Data.append (data : Data task) (message : Queued) (fine : message.Fine) (payload : message.payload = []) :
    Data { task with queued := task.queued ++ [message] } where
  fine := by
    intro other member
    rcases List.mem_append.mp member with member | member
    · exact data.fine other member
    · rwa [List.mem_singleton.mp member]
  whole := by
    intro nothing
    rw [List.flatMap_append, List.flatMap_singleton, payload, List.append_nil]
    exact data.whole nothing

theorem Over.infoAsyncCb (isOver : Over .query task) (data : Data task) : Kept task.id (task.infoAsyncCb result) := by
  have stream := isOver.stream nofun
  unfold Task.infoAsyncCb
  dsimp only
  split
  · exact isOver.idle.completed ⟨data.fine, data.whole⟩
  · rename_i fine
    rw [Bool.or_eq_true, not_or] at fine
    split
    · exact isOver.idle.completed ⟨data.fine, data.whole⟩
    · have asked : Data { task with pending := false, fileSize := result.size } := ⟨data.fine, data.whole⟩
      have told := asked.append .start trivial rfl
      exact ⟨.waits isOver.live isOver.reported isOver.nothing rfl stream (Option.not_isSome_iff_eq_none.mp fine.2),
        told, rfl⟩

theorem Data.read (data : Data task) {bytes : List UInt8} (small : bytes.length ≤ chunkSize) :
    Data { task with bytes := task.bytes ++ bytes, queued := task.queued ++ [.data bytes false] } where
  fine := by
    intro other member
    rcases List.mem_append.mp member with member | member
    · exact data.fine other member
    · rw [List.mem_singleton.mp member]
      exact ⟨small, rfl⟩
  whole := by
    intro nothing
    rw [List.flatMap_append, List.flatMap_singleton, data.whole nothing]
    rfl

/-- A read of a task that is over ends it. -/
theorem Over.readCb (isOver : Over .reading task) (data : Data task)
    (careful : task.error = none -> task.fileSize = 0 -> result.error = none) :
    Exists fun next => task.readCb result = some next ∧ Kept task.id next := by
  have stream := isOver.stream nofun
  unfold Task.readCb
  dsimp only
  by_cases before : task.error.isSome = true
  · rw [if_pos before]
    refine ⟨_, rfl, isOver.idle.completed ⟨data.fine, fun nothing => ?_⟩⟩
    rw [show task.error = none from nothing] at before
    cases before
  have isNone : task.error = none := Option.not_isSome_iff_eq_none.mp before
  rw [if_neg before]
  by_cases failed : result.error.isSome = true
  · -- the count is -1, and the size is not 0
    have notEmpty : task.fileSize ≠ 0 := by
      intro empty
      rw [careful isNone empty] at failed
      cases failed
    have notMore : ¬ ((0 : Int) < -1 ∨ task.fileSize = 0) := not_or.mpr ⟨by decide, notEmpty⟩
    rw [if_pos failed, if_pos failed, if_neg notMore, if_pos failed]
    have done : Data { task with pending := false } := ⟨data.fine, data.whole⟩
    exact ⟨_, rfl, isOver.idle.completed (done.append (.status 2) trivial rfl)⟩
  · rw [if_neg failed, if_neg failed, if_neg failed, Bool.not_eq_true _ |>.mp before]
    have sent := data.read result.small
    split
    · rw [if_neg (by omega)]
      split
      · exact ⟨_, rfl, .waits isOver.live isOver.reported isOver.nothing rfl stream isNone,
          ⟨sent.fine, sent.whole⟩, rfl⟩
      · have idle : Idle { task with
            pending := false
            bytes := task.bytes ++ result.bytes
            readBytes := task.readBytes + UInt64.ofNat result.bytes.length
            queued := task.queued ++ [.data result.bytes false] } := ⟨isOver.live, isOver.reported, isOver.nothing, rfl⟩
        exact ⟨_, rfl, idle.await ⟨sent.fine, sent.whole⟩ fun _ => stream⟩
    · rename_i notMore
      have empty : result.bytes = [] := List.length_eq_zero_iff.mp (by omega)
      refine ⟨_, rfl, .waits isOver.live isOver.reported isOver.nothing rfl stream isNone,
        ⟨data.fine, fun nothing => ?_⟩, rfl⟩
      dsimp only
      rw [empty, List.append_nil]
      exact data.whole isNone

theorem Over.dataFlushedCb (isOver : Over .flush task) (data : Data task) :
    Exists fun next => task.dataFlushedCb = some next ∧ Kept task.id next := by
  unfold Task.dataFlushedCb
  dsimp only
  split
  · exact ⟨_, rfl, isOver.idle.completed ⟨data.fine, data.whole⟩⟩
  · exact isOver.idle.continueRead ⟨data.fine, data.whole⟩ (isOver.stream nofun)

/-- The callback of an operation that is over. -/
theorem Over.callback (isOver : Over operation task) (result : Result) (data : Data task)
    (careful : operation = .reading -> task.error = none -> task.fileSize = 0 -> result.error = none) :
    Exists fun next => task.callback operation result = some next ∧ Kept task.id next := by
  cases operation with
  | opening => exact ⟨_, rfl, isOver.readAsyncCb data⟩
  | query => exact ⟨_, rfl, isOver.infoAsyncCb data⟩
  | reading => exact isOver.readCb data (careful rfl)
  | flush => exact isOver.dataFlushedCb data
  | close =>
      refine ⟨_, rfl, .freed ?_ isOver.nothing ?_, ⟨data.fine, data.whole⟩, rfl⟩
      · unfold Task.closeCb
        rw [isOver.live]
      · unfold Task.closeCb
        rw [isOver.reported, List.nil_append]

/-- Something completes a task that was not freed. -/
theorem Phase.completed (phase : Phase task) (error : Option XferError) (live : task.frees = 0) (data : Data task) :
    Kept task.id (task.completed error) := by
  cases phase with
  | freed isFreed => rw [live] at isFreed; cases isFreed
  | waits _ reported nothing idle stream fine => exact Idle.completed ⟨live, reported, nothing, idle⟩ data
  | busy operation _ reported one pending stream =>
      unfold Task.completed
      dsimp only
      rw [if_pos (show (task.withError error).pending = true from pending)]
      exact ⟨.busy operation live reported one pending stream, data.withError, rfl⟩

/-- A status moves a task on, or ends it. -/
theorem Phase.handleStatus (phase : Phase task) (status : UInt32) (live : task.frees = 0) (data : Data task) :
    Exists fun next => task.handleStatus status = some next ∧ Kept task.id next := by
  unfold Task.handleStatus
  split
  · split
    · exact ⟨_, rfl, phase.completed _ live data⟩
    · rename_i notPending
      cases phase with
      | freed isFreed => rw [live] at isFreed; cases isFreed
      | waits _ reported nothing idle stream fine => exact Idle.continueRead ⟨live, reported, nothing, idle⟩ data stream
      | busy operation _ reported one pending stream => exact absurd pending notPending
  split
  · exact ⟨_, rfl, phase.completed _ live data⟩
  split
  · exact ⟨_, rfl, phase.completed _ live data⟩
  split
  · exact ⟨_, rfl, phase.completed _ live data⟩
  · exact ⟨_, rfl, phase.completed _ live data⟩

/-- A task in its phase is in order. -/
theorem Kept.orderly {id : UInt32} (kept : Kept id task) : Orderly task := by
  obtain ⟨phase, data, _⟩ := kept
  cases phase with
  | freed isFreed nothing reported =>
      refine ⟨⟨by rw [reported, isFreed]; rfl, by omega⟩, fun _ => nothing,
        by rw [nothing]; exact Nat.zero_le _, data.fine, ?_⟩
      intro success
      rw [reported] at success
      exact data.whole (List.singleton_inj.mp success)
  | waits live reported nothing =>
      refine ⟨⟨by rw [reported, live]; rfl, by omega⟩,
        fun freed => by omega, by rw [nothing]; exact Nat.zero_le _, data.fine, ?_⟩
      intro success
      rw [reported] at success
      cases success
  | busy operation live reported one =>
      refine ⟨⟨by rw [reported, live]; rfl, by omega⟩,
        fun freed => by omega, by rw [one]; exact Nat.le_refl _, data.fine, ?_⟩
      intro success
      rw [reported] at success
      cases success

end Tasks

/-! ## All tasks -/

/-- The tasks are in one of their phases, and the table has those that were not freed. -/
structure Inv (channel : MainChannel) : Prop where
  tasks : forall (place : Nat) (task : Task), channel.tasks[place]? = some task -> Kept task.id task
  table : forall (id : UInt32) (place : Nat), (id, place) ∈ channel.table <->
    Exists fun task => channel.tasks[place]? = some task ∧ task.frees = 0 ∧ task.id = id
  once : (channel.table.map Prod.fst).Nodup

section Channels

variable {channel : MainChannel} {place : Nat} {task : Task}

/-- One task goes on to another of its phases. -/
theorem Inv.act {next : Task} (inv : Inv channel) (isTask : channel.tasks[place]? = some task) (live : task.frees = 0)
    (kept : Kept task.id next) : Exists fun after => channel.act place task (some next) = some after ∧ Inv after ∧
      after.tasks = channel.tasks.set place next ∧ after.xferId = channel.xferId := by
  obtain ⟨inside, _⟩ := List.getElem?_eq_some_iff.mp isTask
  have atPlace : (channel.tasks.set place next)[place]? = some next := List.getElem?_set_self inside
  have elsewhere : forall other, other ≠ place -> (channel.tasks.set place next)[other]? = channel.tasks[other]? :=
    fun other different => List.getElem?_set_ne different.symm
  have listed : (task.id, place) ∈ channel.table := (inv.table _ _).mpr ⟨task, isTask, live, rfl⟩
  unfold MainChannel.act
  rw [if_neg (not_not_intro live)]
  refine ⟨_, rfl, ⟨?_, ?_, ?_⟩, rfl, rfl⟩
  · intro other found isFound
    dsimp only at isFound
    by_cases same : other = place
    · rw [same, atPlace] at isFound
      cases isFound
      have isId := kept.id
      exact ⟨kept.phase, kept.data, rfl⟩
    · rw [elsewhere other same] at isFound
      exact inv.tasks other found isFound
  · intro id other
    dsimp only
    have sameTask : other ≠ place -> ((id, other) ∈ channel.table <-> Exists fun found =>
        (channel.tasks.set place next)[other]? = some found ∧ found.frees = 0 ∧ found.id = id) := by
      intro different
      rw [elsewhere other different]
      exact inv.table id other
    split
    · rename_i freed
      rw [List.mem_filter]
      by_cases same : other = place
      · rw [same, atPlace]
        constructor
        · rintro ⟨member, notId⟩
          obtain ⟨found, isFound, _, isId⟩ := (inv.table id place).mp (same ▸ member)
          rw [isTask] at isFound
          cases isFound
          exact absurd isId.symm (of_decide_eq_true notId)
        · rintro ⟨found, isFound, notFreed, _⟩
          cases isFound
          exact absurd notFreed freed
      · rw [<- sameTask same]
        refine ⟨fun both => both.1, fun member => ⟨member, decide_eq_true fun isId => same ?_⟩⟩
        -- no two entries have one id
        have entry := List.inj_on_of_nodup_map inv.once member listed isId
        exact (Prod.mk.inj entry).2
    · rename_i notFreed
      by_cases same : other = place
      · rw [same, atPlace]
        rw [inv.table id place, isTask]
        constructor
        · rintro ⟨found, isFound, _, isId⟩
          cases isFound
          exact ⟨next, rfl, not_not.mp notFreed, kept.id.trans isId⟩
        · rintro ⟨found, isFound, _, isId⟩
          cases isFound
          exact ⟨task, rfl, live, kept.id.symm.trans isId⟩
      · exact sameTask same
  · dsimp only
    split
    · exact (List.filter_sublist.map _).nodup inv.once
    · exact inv.once

theorem complete_eq {index : Nat} (result : Result) (isTask : channel.tasks[place]? = some task)
    (isOperation : task.outstanding[index]? = some operation) : channel.complete place index result =
      channel.act place task ({ task with
        outstanding := task.outstanding.eraseIdx index }.callback operation result) := by
  unfold MainChannel.complete
  rw [isTask]
  dsimp only
  rw [isOperation]

/-- The one operation that is outstanding is over. -/
theorem Phase.over {only : Operation} (phase : Phase task) (one : task.outstanding = [only]) :
    Over only { task with outstanding := task.outstanding.eraseIdx 0 } := by
  cases phase with
  | freed _ nothing => rw [nothing] at one; cases one
  | waits _ _ nothing => rw [nothing] at one; cases one
  | busy operation live reported isOne _ stream =>
      rw [isOne] at one
      cases one
      exact ⟨live, reported, by rw [isOne]; rfl, stream⟩

/-- At most one operation is outstanding, so the one that reports is the first. -/
theorem Phase.first {index : Nat} (phase : Phase task)
    (isOperation : task.outstanding[index]? = some operation) : index = 0 ∧ task.outstanding = [operation] := by
  cases phase with
  | freed _ nothing => rw [nothing] at isOperation; cases isOperation
  | waits _ _ nothing => rw [nothing] at isOperation; cases isOperation
  | busy only _ _ one =>
      rw [one, List.getElem?_singleton] at isOperation
      split at isOperation
      · rename_i isZero
        cases isOperation
        exact ⟨isZero, one⟩
      · cases isOperation

/-- An operation of a task completes. -/
theorem Inv.complete {index : Nat} {result : Result} (inv : Inv channel)
    (careful : Careful channel (.complete place index result)) :
    Exists fun after => channel.complete place index result = some after ∧ Inv after := by
  cases isTask : channel.tasks[place]? with
  | none =>
      unfold MainChannel.complete
      rw [isTask]
      exact ⟨channel, rfl, inv⟩
  | some task =>
      cases isOperation : task.outstanding[index]? with
      | none =>
          unfold MainChannel.complete
          rw [isTask]
          dsimp only
          rw [isOperation]
          exact ⟨channel, rfl, inv⟩
      | some operation =>
          have kept := inv.tasks place task isTask
          rw [complete_eq result isTask isOperation]
          obtain ⟨isZero, one⟩ := kept.phase.first isOperation
          have isOver := kept.phase.over one
          obtain ⟨next, called, nextKept⟩ := isOver.callback result ⟨kept.data.fine, kept.data.whole⟩
            fun isReading fine empty => careful task isTask (isOperation.trans (congrArg some isReading)) fine empty
          obtain ⟨after, acted, afterInv, _⟩ := inv.act isTask isOver.live nextKept
          rw [isZero, called]
          exact ⟨after, acted, afterInv⟩

theorem Inv.lookup (inv : Inv channel) {id : UInt32} (isPlace : channel.table.lookup id = some place) :
    Exists fun task => channel.tasks[place]? = some task ∧ task.frees = 0 ∧ task.id = id := by
  obtain ⟨before, after, isTable, _⟩ := List.lookup_eq_some_iff.mp isPlace
  refine (inv.table id place).mp ?_
  rw [isTable]
  exact List.mem_append_right _ List.mem_cons_self

theorem Inv.lookup_live (inv : Inv channel) (isTask : channel.tasks[place]? = some task) (live : task.frees = 0) :
    channel.table.lookup task.id = some place := by
  have listed : (task.id, place) ∈ channel.table := (inv.table _ _).mpr ⟨task, isTask, live, rfl⟩
  cases found : channel.table.lookup task.id with
  | none =>
      have absent := List.lookup_eq_none_iff.mp found (task.id, place) listed
      simp at absent
  | some other =>
      obtain ⟨before, after, isTable, _⟩ := List.lookup_eq_some_iff.mp found
      have member : (task.id, other) ∈ channel.table := by
        rw [isTable]
        exact List.mem_append_right _ List.mem_cons_self
      have same := List.inj_on_of_nodup_map inv.once member listed rfl
      rw [(Prod.mk.inj same).2]

theorem Inv.status {id status : UInt32} (inv : Inv channel) :
    Exists fun after => channel.handleStatus id status = some after ∧ Inv after := by
  unfold MainChannel.handleStatus
  cases found : channel.table.lookup id with
  | none => exact ⟨channel, rfl, inv⟩
  | some place =>
      obtain ⟨task, isTask, live, _⟩ := inv.lookup found
      have kept := inv.tasks place task isTask
      obtain ⟨next, handled, nextKept⟩ := kept.phase.handleStatus status live kept.data
      obtain ⟨after, acted, afterInv, _⟩ := inv.act isTask live nextKept
      dsimp only
      rw [isTask]
      exact ⟨after, (congrArg (channel.act place task) handled).trans acted, afterInv⟩

/-- Each task of a list is told that the agent is gone. -/
theorem Inv.resetTasks (entries : List (UInt32 × Nat)) : forall {channel : MainChannel}, Inv channel ->
    (entries.map Prod.fst).Nodup -> (forall entry, entry ∈ entries -> Exists fun task =>
      channel.tasks[entry.2]? = some task ∧ task.frees = 0 ∧ task.id = entry.1) ->
    Exists fun after => entries.foldlM (fun channel entry => channel.resetTask entry.2) channel = some after ∧
      Inv after := by
  induction entries with
  | nil => exact fun inv _ _ => ⟨_, rfl, inv⟩
  | cons entry entries ih =>
      intro channel inv once listed
      obtain ⟨task, isTask, live, isId⟩ := listed entry List.mem_cons_self
      have kept := inv.tasks entry.2 task isTask
      obtain ⟨after, acted, afterInv, isTasks, _⟩ := inv.act isTask live
        (kept.phase.completed (some (.client "Agent connection closed")) live kept.data)
      rw [List.map_cons, List.nodup_cons] at once
      rw [List.foldlM_cons]
      have reset : channel.resetTask entry.2 = some after := by
        unfold MainChannel.resetTask
        rw [isTask]
        exact acted
      rw [reset]
      refine ih afterInv once.2 fun other member => ?_
      obtain ⟨found, isFound, foundLive, foundId⟩ := listed other (List.mem_cons_of_mem _ member)
      have different : entry.2 ≠ other.2 := by
        intro same
        rw [<- same, isTask] at isFound
        cases isFound
        refine once.1 (List.mem_map.mpr ⟨other, member, ?_⟩)
        rw [<- foundId, isId]
      exact ⟨found, by rw [isTasks, List.getElem?_set_ne different, isFound], foundLive, foundId⟩

/-- A new task gets an id of its own. -/
theorem Inv.start (inv : Inv channel) (unused : channel.xferId + 1 ∉ channel.table.map Prod.fst) :
    Exists fun after => channel.step .start = some after ∧ Inv after := by
  have same : (channel.table.filter fun entry => entry.1 ≠ channel.xferId + 1) = channel.table := by
    refine List.filter_eq_self.mpr fun entry member => decide_eq_true fun isId => unused ?_
    exact List.mem_map.mpr ⟨entry, member, isId⟩
  have begun : Kept (channel.xferId + 1) (newTask (channel.xferId + 1)) :=
    ⟨.busy .opening rfl rfl rfl rfl (absurd rfl), ⟨fun _ member => (nomatch member), fun _ => rfl⟩, rfl⟩
  unfold MainChannel.step
  refine ⟨_, rfl, ⟨?_, ?_, ?_⟩⟩
  · intro place task isTask
    dsimp only at isTask
    rcases Nat.lt_or_ge place channel.tasks.length with inside | beyond
    · rw [List.getElem?_append_left inside] at isTask
      exact inv.tasks place task isTask
    · rw [List.getElem?_append_right beyond, List.getElem?_singleton] at isTask
      split at isTask
      · cases isTask
        exact begun
      · cases isTask
  · intro id place
    dsimp only
    rw [same, List.mem_cons, inv.table]
    rcases Nat.lt_trichotomy place channel.tasks.length with inside | isNew | beyond
    · rw [List.getElem?_append_left inside]
      refine ⟨fun either => either.resolve_left fun isEntry => ?_, .inr⟩
      rw [(Prod.mk.inj isEntry).2] at inside
      exact Nat.lt_irrefl _ inside
    · rw [isNew, List.getElem?_concat_length, List.getElem?_eq_none (Nat.le_refl _)]
      constructor
      · rintro (isEntry | ⟨_, isTask, _⟩)
        · exact ⟨_, rfl, rfl, (Prod.mk.inj isEntry).1.symm⟩
        · cases isTask
      · rintro ⟨task, isTask, _, isId⟩
        cases isTask
        exact .inl (by rw [<- isId]; rfl)
    · rw [List.getElem?_append_right (Nat.le_of_lt beyond), List.getElem?_singleton, if_neg (by omega),
        List.getElem?_eq_none (Nat.le_of_lt beyond)]
      constructor
      · rintro (isEntry | ⟨_, isTask, _⟩)
        · rw [(Prod.mk.inj isEntry).2] at beyond
          exact absurd beyond (Nat.lt_irrefl _)
        · cases isTask
      · rintro ⟨_, isTask, _⟩
        cases isTask
  · dsimp only
    rw [same, List.map_cons, List.nodup_cons]
    exact ⟨unused, inv.once⟩

theorem Inv.step {op : Op} (inv : Inv channel) (careful : Careful channel op) :
    Exists fun after => channel.step op = some after ∧ Inv after := by
  cases op with
  | start => exact inv.start careful
  | complete place index result => exact inv.complete careful
  | status id result => exact inv.status
  | resetAgent =>
      refine Inv.resetTasks channel.table inv inv.once fun entry member => ?_
      exact (inv.table entry.1 entry.2).mp member

/-! ### A task can always end -/

/-- The agent reports an error of a task that was not freed. -/
theorem Inv.fails (inv : Inv channel) (isTask : channel.tasks[place]? = some task) (live : task.frees = 0) :
    Exists fun after => Exists fun next => channel.handleStatus task.id 2 = some after ∧ Inv after ∧
      after.tasks[place]? = some next ∧ next.frees = 0 ∧ next.error.isSome = true := by
  have kept := inv.tasks place task isTask
  have nextKept := kept.phase.completed (some (.client "some errors occurred in the spice agent")) live kept.data
  obtain ⟨after, acted, afterInv, isTasks, _⟩ := inv.act isTask live nextKept
  obtain ⟨inside, _⟩ := List.getElem?_eq_some_iff.mp isTask
  refine ⟨after, _, ?_, afterInv, by rw [isTasks, List.getElem?_set_self inside], ?_⟩
  · unfold MainChannel.handleStatus
    rw [inv.lookup_live isTask live]
    dsimp only
    rw [isTask]
    exact acted
  · have hasError : (task.withError (some (.client "some errors occurred in the spice agent"))).error.isSome =
        true := by
      unfold Task.withError
      dsimp only
      split
      · assumption
      · rfl
    unfold Task.completed
    dsimp only
    split
    · exact ⟨live, hasError⟩
    · rename_i notPending
      cases kept.phase with
      | freed isFreed => rw [live] at isFreed; cases isFreed
      | waits _ _ _ _ stream =>
          rw [if_pos (show (task.withError _).fileStream = true from stream)]
          exact ⟨live, hasError⟩
      | busy _ _ _ _ pending => exact absurd pending notPending

/-- The operation of a task with an error is over. -/
theorem Over.ends (isOver : Over operation task) (result : Result)
    (failed : operation ≠ .close -> task.error.isSome = true) :
    Exists fun next => task.callback operation result = some next ∧
      (next.frees = 1 ∨ operation ≠ .close ∧ next.outstanding = [.close]) := by
  have ended : forall {idle : Task} {error : Option XferError}, Idle idle -> operation ≠ .close ->
      ((idle.completed error).frees = 1 ∨ operation ≠ .close ∧ (idle.completed error).outstanding = [.close]) := by
    intro idle error isIdle notClose
    have notPending : ¬ (idle.withError error).pending = true := by
      rw [show (idle.withError error).pending = false from isIdle.idle]
      exact nofun
    unfold Task.completed
    dsimp only
    rw [if_neg notPending]
    split
    · exact .inr ⟨notClose, congrArg (fun before => before ++ [Operation.close]) isIdle.nothing⟩
    · exact .inl (congrArg (fun before => before + 1) isIdle.live)
  cases operation with
  | opening =>
      unfold Task.callback Task.readAsyncCb
      rw [if_pos (Bool.or_eq_true _ _ |>.mpr (.inr (failed nofun)))]
      exact ⟨_, rfl, ended isOver.idle nofun⟩
  | query =>
      unfold Task.callback Task.infoAsyncCb
      rw [if_pos (Bool.or_eq_true _ _ |>.mpr (.inr (failed nofun)))]
      exact ⟨_, rfl, ended isOver.idle nofun⟩
  | reading =>
      unfold Task.callback Task.readCb
      dsimp only
      rw [if_pos (failed nofun)]
      exact ⟨_, rfl, ended isOver.idle nofun⟩
  | flush =>
      unfold Task.callback Task.dataFlushedCb
      dsimp only
      rw [if_pos (failed nofun)]
      exact ⟨_, rfl, ended isOver.idle nofun⟩
  | close => exact ⟨_, rfl, .inl (congrArg (fun before => before + 1) isOver.live)⟩

/-- The operation of a task with an error reports. -/
theorem Inv.completesFailed {only : Operation} (result : Result) (inv : Inv channel)
    (isTask : channel.tasks[place]? = some task) (one : task.outstanding = [only])
    (failed : only ≠ .close -> task.error.isSome = true) :
    Exists fun after => Exists fun next => channel.complete place 0 result = some after ∧ Inv after ∧
      after.tasks[place]? = some next ∧ (next.frees = 1 ∨ only ≠ .close ∧ next.outstanding = [.close]) := by
  obtain ⟨inside, _⟩ := List.getElem?_eq_some_iff.mp isTask
  have isOnly : task.outstanding[0]? = some only := by rw [one]; rfl
  have isOver := (inv.tasks place task isTask).phase.over one
  obtain ⟨next, called, ends⟩ := isOver.ends result failed
  have careful : Careful channel (.complete place 0 result) := by
    intro found isFound isReading fine
    rw [isTask] at isFound
    cases isFound
    rw [isOnly] at isReading
    cases isReading
    have isSome := failed nofun
    rw [fine] at isSome
    cases isSome
  obtain ⟨after, completes, afterInv⟩ := inv.complete careful
  refine ⟨after, next, completes, afterInv, ?_, ends⟩
  rw [complete_eq result isTask isOnly, called] at completes
  unfold MainChannel.act at completes
  rw [if_neg (not_not_intro isOver.live)] at completes
  cases completes
  exact List.getElem?_set_self inside

/-- An operation of a task that was freed reports nothing. -/
theorem Inv.completeFreed (result : Result) (inv : Inv channel) (isTask : channel.tasks[place]? = some task)
    (freed : task.frees = 1) : channel.complete place 0 result = some channel := by
  have nothing := (inv.tasks place task isTask).orderly.freed freed
  unfold MainChannel.complete
  rw [isTask]
  dsimp only
  rw [nothing]
  rfl

/-- From every state the task can be brought to its end. -/
theorem Inv.ends (inv : Inv channel) (isTask : channel.tasks[place]? = some task) (live : task.frees = 0) :
    Ends channel place task := by
  intro first second
  obtain ⟨told, failing, tells, toldInv, isFailing, failingLive, failed⟩ := inv.fails isTask live
  have finish : forall {middle final : MainChannel} {last : Task}, told.complete place 0 first = some middle ->
      middle.complete place 0 second = some final -> Inv final -> final.tasks[place]? = some last -> last.frees = 1 ->
      Exists fun final => run MainChannel.step channel [.status task.id 2, .complete place 0 first,
        .complete place 0 second] =
        some final ∧ Exists fun last => final.tasks[place]? = some last ∧ last.frees = 1 ∧
          last.reported.length = 1 := by
    intro middle final last isMiddle isFinal finalInv isLast freed
    refine ⟨final, ?_, last, isLast, freed, (finalInv.tasks place last isLast).orderly.once.1.trans freed⟩
    exact (run_cons_eq_some _).mpr
      ⟨told, tells, (run_cons_eq_some _).mpr ⟨middle, isMiddle, (run_cons_eq_some _).mpr ⟨final, isFinal, rfl⟩⟩⟩
  cases (toldInv.tasks place failing isFailing).phase with
  | freed isFreed => rw [failingLive] at isFreed; cases isFreed
  | waits _ _ _ _ _ fine => rw [fine] at failed; cases failed
  | busy only _ _ one =>
      obtain ⟨middle, next, isMiddle, middleInv, isNext, ends⟩ :=
        toldInv.completesFailed first isFailing one fun _ => failed
      rcases ends with freed | ⟨_, closes⟩
      · exact finish isMiddle (middleInv.completeFreed second isNext freed) middleInv isNext freed
      · obtain ⟨final, last, isFinal, finalInv, isLast, ends⟩ :=
          middleInv.completesFailed second isNext closes (absurd rfl)
        rcases ends with freed | ⟨notClose, _⟩
        · exact finish isMiddle isFinal finalInv isLast freed
        · exact absurd rfl notClose

theorem Inv.inOrder (inv : Inv channel) : InOrder channel where
  orderly := by
    intro task member
    obtain ⟨place, isTask⟩ := List.mem_iff_getElem?.mp member
    exact (inv.tasks place task isTask).orderly
  ends := fun _ _ isTask live => inv.ends isTask live

end Channels

theorem inv_empty (xferId : UInt32) : Inv (.empty xferId) where
  tasks := fun place task isTask => by rw [show (MainChannel.empty xferId).tasks = [] from rfl] at isTask; cases isTask
  table := by
    intro id place
    constructor
    · intro member
      cases member
    · rintro ⟨task, isTask, _⟩
      rw [show (MainChannel.empty xferId).tasks = [] from rfl] at isTask
      cases isTask
  once := List.nodup_nil

/-- In every run in which no task gets the id of one that is not freed, and in which reading an empty file does not
fail, the tasks are in order in every state reached: each is reported and freed once and can end from there. -/
theorem file_xfer (xferId : UInt32) (ops : List Op)
    (careful : Meets MainChannel.step (fun _ => Careful) [] (.empty xferId) ops) :
    AllStates MainChannel.step (fun _ => InOrder) [] (.empty xferId) ops := by
  have inOrder : forall (_ : List Op) (channel : MainChannel), Inv channel -> InOrder channel :=
    fun _ _ inv => inv.inOrder
  refine allStates_of_meets inOrder ?_ (inv_empty xferId) careful
  exact fun _ _ _ inv isCareful => inv.step isCareful

instance (channel : MainChannel) (op : Op) : Decidable (Careful channel op) :=
  match op with
  | .start => inferInstanceAs (Decidable (channel.xferId + 1 ∉ channel.table.map Prod.fst))
  | .complete place index result => inferInstanceAs (Decidable (forall task, task ∈ channel.tasks[place]? ->
      task.outstanding[index]? = some .reading -> task.error = none -> task.fileSize = 0 -> result.error = none))
  | .status _ _ => isTrue trivial
  | .resetAgent => isTrue trivial

/-- The result of an operation without an error. -/
def fine (size : UInt64) (bytes : List UInt8) (small : bytes.length ≤ chunkSize) : Result :=
  ⟨none, size, none, bytes, small⟩

/-- One file is sent, and while it is read the agent reports an error of another, which is opened. -/
theorem file_xfer_two : AllStates MainChannel.step (fun _ => InOrder) [] (.empty 0)
    [.start, .complete 0 0 (fine 0 [] (by decide)), .complete 0 0 (fine 3 [] (by decide)), .start, .status 1 0,
      .status 2 2, .complete 0 0 (fine 0 [1, 2, 3] (by decide)), .complete 0 0 (fine 0 [] (by decide)),
      .complete 1 0 (fine 0 [] (by decide)), .complete 0 0 (fine 0 [] (by decide)), .status 1 3,
      .complete 0 0 (fine 0 [] (by decide)), .complete 1 0 (fine 0 [] (by decide))] := by
  have careful : forall (_ : List Op) (channel : MainChannel) (op : Op), decide (Careful channel op) = true ->
      Careful channel op :=
    fun _ _ _ checked => of_decide_eq_true checked
  refine file_xfer 0 _ (Meets.of_check careful _ _ _ ?_)
  · decide +kernel

/-- Reading an empty file fails, and bytes from outside of the buffer are queued. -/
theorem file_xfer_empty : Not (forall (xferId : UInt32) (ops : List Op),
    AllStates MainChannel.step (fun _ => InOrder) [] (.empty xferId) ops) := by
  intro always
  obtain ⟨last, ran, _⟩ := always 0 [.start, .complete 0 0 (fine 0 [] (by decide)),
    .complete 0 0 (fine 0 [] (by decide)),
    .status 1 0, .complete 0 0 ⟨some (.io 14), 0, none, [], by decide⟩] _ (List.prefix_refl _)
  have fails : (run MainChannel.step (.empty 0) [.start, .complete 0 0 (fine 0 [] (by decide)),
    .complete 0 0 (fine 0 [] (by decide)), .status 1 0, .complete 0 0 ⟨some (.io 14), 0, none, [], by decide⟩]).isNone =
      true := by decide +kernel
  rw [ran] at fails
  cases fails

end FileXfer
end Client
end Spice
