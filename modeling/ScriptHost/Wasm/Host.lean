import ScriptHost.Invocation
import ScriptHost.Output
import ScriptHost.Wasm.Memory
import ScriptHost.Wasm.Numeric.Eval

/-!
# Functions of the host

What compiled scripts import from the host. Texts and handles pass through the memory that
the calling module exports as `memory`; a request that does not make sense there has no
effect but its answer. The functions of the system interface exist as well, but there are
no arguments, no environment and no files.
-/

namespace ScriptHost.Wasm

/-- The state of the host during one run of a script. `handles` are JSON texts. -/
structure Host where
  handles : List String := []
  selection : List UInt64 := []
  output : Entries := []
  message : String := ""
  deriving Inhabited

def Host.ofHandles (h : Handles) : Host where
  handles := [h.commandData, h.eventSender, h.eventArgs].map Json.render
  selection := h.selection

inductive HostFunction where
  | print
  | printError
  | setMessage
  | handleLength
  | handleRead
  | selectionLength
  | selectionGet
  | exit
  | nothingThere (results : Nat)
  deriving DecidableEq, Inhabited

namespace HostFunction

/-- The module that the host's own functions are imported from. -/
def hostModule : String := "host"

/-- The module of the system interface. -/
def systemModule : String := "wasi_snapshot_preview1"

/-- The host's own functions, by name. -/
def own : List (String × HostFunction × FuncType) :=
  [("print", .print, ⟨[.i32, .i32], []⟩),
    ("print_error", .printError, ⟨[.i32, .i32], []⟩),
    ("set_message", .setMessage, ⟨[.i32, .i32], []⟩),
    ("handle_len", .handleLength, ⟨[.i32], [.i32]⟩),
    ("handle_read", .handleRead, ⟨[.i32, .i32, .i32], [.i32]⟩),
    ("selection_len", .selectionLength, ⟨[], [.i32]⟩),
    ("selection_get", .selectionGet, ⟨[.i32], [.i64]⟩)]

/-- A function of the system interface that answers with an error number, from the letters
of its parameter types. -/
def answering (name letters : String) : String × HostFunction × FuncType :=
  (name, .nothingThere 0,
    ⟨letters.toList.map fun c => if c = 'l' then .i64 else .i32, [.i32]⟩)

/-- The functions of the system interface, by name. -/
def system : List (String × HostFunction × FuncType) :=
  [("args_sizes_get", .nothingThere 2, ⟨[.i32, .i32], [.i32]⟩),
    ("environ_sizes_get", .nothingThere 2, ⟨[.i32, .i32], [.i32]⟩),
    ("proc_exit", .exit, ⟨[.i32], []⟩),
    answering "args_get" "ii", answering "environ_get" "ii",
    answering "clock_res_get" "ii", answering "clock_time_get" "ili",
    answering "fd_advise" "illi", answering "fd_allocate" "ill", answering "fd_close" "i",
    answering "fd_datasync" "i", answering "fd_fdstat_get" "ii",
    answering "fd_fdstat_set_flags" "ii", answering "fd_fdstat_set_rights" "ill",
    answering "fd_filestat_get" "ii", answering "fd_filestat_set_size" "il",
    answering "fd_filestat_set_times" "illi", answering "fd_pread" "iiili",
    answering "fd_prestat_get" "ii", answering "fd_prestat_dir_name" "iii",
    answering "fd_pwrite" "iiili", answering "fd_read" "iiii", answering "fd_readdir" "iiili",
    answering "fd_renumber" "ii", answering "fd_seek" "ilii", answering "fd_sync" "i",
    answering "fd_tell" "ii", answering "fd_write" "iiii",
    answering "path_create_directory" "iii", answering "path_filestat_get" "iiiii",
    answering "path_filestat_set_times" "iiiilli", answering "path_link" "iiiiiii",
    answering "path_open" "iiiiillii", answering "path_readlink" "iiiiii",
    answering "path_remove_directory" "iii", answering "path_rename" "iiiiii",
    answering "path_symlink" "iiiii", answering "path_unlink_file" "iii",
    answering "poll_oneoff" "iiii", answering "proc_raise" "i", answering "sched_yield" "",
    answering "random_get" "ii", answering "sock_accept" "iii", answering "sock_recv" "iiiiii",
    answering "sock_send" "iiiii", answering "sock_shutdown" "ii"]

end HostFunction

/-- Why a run stops before its end. -/
inductive Stop where
  | trap (t : Trap)
  | exited (status : Nat)
  | invalidExit
  | noMemory
  | outOfSteps
  | stuck
  deriving DecidableEq

def Stop.message : Stop → String
  | .trap t => t.message
  | .exited status => "Exited with i32 exit status " ++ toString status
  | .invalidExit => "exit with invalid exit status outside of [0..126)"
  | .noMemory => "missing required memory export"
  | .outOfSteps => "wasm trap: all fuel consumed by WebAssembly"
  | .stuck => "the module is not well typed"

namespace Host

/-- A number of 32 bits that counts or addresses something: not negative. -/
def index? (n : UInt32) : Option Nat := if n.toNat < Nat.pow 2 31 then some n.toNat else none

/-- The number that stands for a failure, and for every count that is too great. -/
def failure : UInt32 := 0xffffffff

/-- A count as a number of 32 bits. -/
def count (n : Nat) : UInt32 := if n < Nat.pow 2 31 then n.toUInt32 else failure

/-- The text of a range of memory, if it is valid. An empty text needs no memory. -/
def readText (memory : Option Memory) (ptr len : UInt32) : Option String :=
  if len = 0 then some ""
  else do
    let start ← index? ptr
    let n ← index? len
    String.fromUTF8? ⟨(← (← memory).read? start n).toArray⟩

/-- Writes the first bytes, as many as `capacity` allows: how many, and the memory then.
Writing none needs no memory. -/
def writeBytes (memory : Option Memory) (ptr capacity : UInt32) (bytes : List UInt8) :
    Option (UInt32 × Option Memory) := do
  let n := min bytes.length (← index? capacity)
  if n = 0 then return (0, memory)
  else
    let start ← index? ptr
    let changed ← (← memory).write? start (bytes.take n)
    return (n.toUInt32, some changed)

/-- The JSON text that a number stands for. -/
def handle? (h : Host) (id : UInt32) : Option String := do h.handles[(← index? id)]?

def handleLength (h : Host) (id : UInt32) : UInt32 :=
  match h.handle? id with
  | some text => count text.utf8ByteSize
  | none => failure

/-- The answer to a request for a handle, and the memory then. -/
def handleRead (h : Host) (memory : Option Memory) (id ptr len : UInt32) :
    UInt32 × Option Memory :=
  match (h.handle? id).bind fun text => writeBytes memory ptr len text.toUTF8.toList with
  | some answer => answer
  | none => (failure, memory)

/-- The number of selected elements, or the greatest number of 31 bits. -/
def selectionLength (h : Host) : UInt32 :=
  let n := h.selection.length
  if n < Nat.pow 2 31 then n.toUInt32 else 0x7fffffff

/-- A selected element, if its number is one of 63 bits. -/
def selectionGet (h : Host) (i : UInt32) : UInt64 :=
  match (index? i).bind fun i => h.selection[i]? with
  | some id => if id.toNat < Nat.pow 2 63 then id else 0xffffffffffffffff
  | none => 0xffffffffffffffff

def write (h : Host) (channel : Channel) (text : String) : Host :=
  { h with output := h.output ++ [⟨channel, text⟩] }

/-- Writes zeros of four bytes each to the addresses; the answer is an error number. -/
def zerosAt (memory : Memory) : List UInt32 → Memory × UInt32
  | [] => (memory, 0)
  | address :: rest =>
    match memory.write? address.toNat [0, 0, 0, 0] with
    | some memory => zerosAt memory rest
    | none => (memory, 21)

/-- Calls a function: the host, the memory and the results afterwards. -/
def call (h : Host) (memory : Option Memory) (f : HostFunction) (args : List Value) :
    Except Stop (Host × Option Memory × List Value) :=
  match f, args with
  | .print, [.i32 ptr, .i32 len] =>
    match readText memory ptr len with
    | some text => .ok (h.write .out text, memory, [])
    | none => .ok (h, memory, [])
  | .printError, [.i32 ptr, .i32 len] =>
    match readText memory ptr len with
    | some text => .ok (h.write .err text, memory, [])
    | none => .ok (h, memory, [])
  | .setMessage, [.i32 ptr, .i32 len] =>
    match readText memory ptr len with
    | some text => .ok ({ h with message := text }, memory, [])
    | none => .ok (h, memory, [])
  | .handleLength, [.i32 id] => .ok (h, memory, [.i32 (h.handleLength id)])
  | .handleRead, [.i32 id, .i32 ptr, .i32 len] =>
    let (answer, memory) := h.handleRead memory id ptr len
    .ok (h, memory, [.i32 answer])
  | .selectionLength, [] => .ok (h, memory, [.i32 h.selectionLength])
  | .selectionGet, [.i32 i] => .ok (h, memory, [.i64 (h.selectionGet i)])
  | .exit, [.i32 status] =>
    if memory.isNone then .error .noMemory
    else if status.toNat < 126 then .error (.exited status.toNat)
    else .error .invalidExit
  | .nothingThere zeros, args =>
    match memory with
    | none => .error .noMemory
    | some memory =>
      if zeros = 0 then .ok (h, memory, [.i32 8])
      else
        let (memory, answer) := zerosAt memory (args.map fun v => v.bits.toUInt32)
        .ok (h, memory, [.i32 answer])
  | _, _ => .error .stuck

end Host

end ScriptHost.Wasm
