import Mathlib.Data.Int.Notation
import Tipcutils.Lib.Lts
import Tipcutils.Lib.Wire

/-!
# `Pipe.PipeStart` — the loop of `tipc-pipe`

`pipe_start` is cut at its system calls: a program counter says which call comes next, a label is the outcome of this
call. All three directions use one buffer and one length. The run's `trace` is what the calls have done: the blocks that
were read, and every call of `write` with the block that it was given and the number of octets that it took.

Without `--tee` there is no socket pair and `fd_pair[1]` has never been assigned; `Opts.fdPair1` is what it then holds.
Not modelled: the addresses of connectionless sockets, delays, and what is printed on stderr.
-/

namespace Tipcutils
namespace Pipe

/-- The descriptors of the process: `stdin`, `stdout`, the TIPC socket, the socket pair of `--tee`, and any other. -/
inductive Fd where
  | stdin
  | stdout
  | tipc
  | pair0
  | pair1
  | other (n : ℤ)
deriving DecidableEq

structure Opts where
  tee : Bool
  bufSize : ℕ
  /-- `fd_pair[1]` where `socketpair` has not been called -/
  fdPair1 : Fd

/-- `fd_pair[1]`. -/
def Opts.teeFd (o : Opts) : Fd := if o.tee then .pair1 else o.fdPair1

/-- The flags of `revents` that are looked at: `POLLIN` of the three descriptors and `POLLHUP` of the first two. -/
structure Revents where
  in0 : Bool
  hup0 : Bool
  in1 : Bool
  hup1 : Bool
  in2 : Bool

/-- What a call has done. -/
inductive Event where
  | read (fd : Fd) (data : Octets)
  | write (fd : Fd) (data : Octets) (taken : ℕ)
deriving DecidableEq

/-- The call that comes next, or how the function has ended. -/
inductive Pc where
  | socketpair
  | poll
  | teeRecv
  | teeWrite
  | stdinRead
  | tipcWrite
  | pairWrite
  | tipcRecv
  | stdoutWrite
  | returned
  | exited
deriving DecidableEq

structure State where
  pc : Pc
  revents : Revents
  buf : Octets
  len : ℤ
  dataInLen : ℤ
  /-- what has been written to `fd_pair[1]` and not yet been received from `fd_pair[0]` -/
  pair : Octets
  trace : List Event

/-- The outcome of a `write`: it takes some octets, or fails with `EAGAIN`, or otherwise. -/
inductive WriteRes where
  | taken (n : ℕ)
  | again
  | failed
deriving DecidableEq

/-- The value that `write` returns. -/
def WriteRes.val : WriteRes → ℤ
  | .taken n => n
  | .again | .failed => -1

/-- The number of octets that are taken. -/
def WriteRes.count : WriteRes → ℕ
  | .taken n => n
  | .again | .failed => 0

/-- The outcome of the next call. -/
inductive Label where
  | socketpair (ok : Bool)
  | poll (revents : Option Revents)
  | read (data : Option Octets)
  | write (res : WriteRes)

def start (o : Opts) (buf : Octets) : State :=
  ⟨if o.tee then .socketpair else .poll, ⟨false, false, false, false, false⟩, buf, 0, 0, [], []⟩

/-! ## What follows a call -/

/-- The end of a round: a hangup with nothing read ends the loop. -/
def State.roundEnd (s : State) : State :=
  if (s.revents.hup0 ∨ s.revents.hup1) ∧ s.dataInLen = 0 then { s with pc := .returned } else { s with pc := .poll }

def State.afterStdin (s : State) : State := if s.revents.in1 then { s with pc := .tipcRecv } else s.roundEnd

def State.afterTee (s : State) : State := if s.revents.in0 then { s with pc := .stdinRead } else s.afterStdin

variable (o : Opts)

def State.afterPoll (s : State) : State := if o.tee ∧ s.revents.in2 then { s with pc := .teeRecv } else s.afterTee

/-- A read into the buffer. -/
def State.fill (s : State) (fd : Fd) (data : Octets) : State :=
  { s with buf := overlay o.bufSize s.buf data, len := data.length, trace := s.trace ++ [.read fd data] }

/-- A write of the first `n` octets of the buffer. What the pair takes can be received at its other end. -/
def State.put (s : State) (fd : Fd) (n : ℤ) (res : WriteRes) : State :=
  let data := s.buf.take n.toNat
  { s with
    pair := if fd = .pair1 then s.pair ++ data.take res.count else s.pair
    trace := s.trace ++ [.write fd data res.count] }

/-- The call that the label belongs to. -/
def step (s : State) : Label → Option State
  | .socketpair ok =>
    match s.pc with
    | .socketpair => some { s with pc := if ok then .poll else .exited }
    | _ => none
  | .poll revents =>
    match s.pc, revents with
    | .poll, some r => some ({ s with revents := r, dataInLen := 0 }.afterPoll o)
    | .poll, none => some { s with pc := .returned }
    | _, _ => none
  | .read none =>
    match s.pc with
    | .teeRecv => some { s with pc := .returned, len := -1 }
    | .stdinRead | .tipcRecv => some { s with pc := .returned, len := -1, dataInLen := -1 }
    | _ => none
  | .read (some data) =>
    if data.length ≤ o.bufSize then
      match s.pc with
      | .teeRecv =>
        if data <+: s.pair then some { s.fill o .pair0 data with pc := .teeWrite, pair := s.pair.drop data.length }
        else none
      | .stdinRead => some { s.fill o .stdin data with pc := .tipcWrite, dataInLen := data.length }
      | .tipcRecv => some { s.fill o .tipc data with pc := .stdoutWrite, dataInLen := data.length }
      | _ => none
    else none
  | .write res =>
    match s.pc with
    | .teeWrite =>
      if (res.count : ℤ) ≤ s.len then
        let s' := s.put .stdout s.len res
        -- what `stdout` takes is compared, and a difference ends the program
        some (if res.val = s.len then s'.afterTee else { s' with pc := .exited })
      else none
    | .tipcWrite =>
      if (res.count : ℤ) ≤ s.dataInLen then
        let s' := { s.put .tipc s.dataInLen res with len := res.val }
        -- only `EAGAIN` repeats the write; what the socket takes is not compared with `data_in_len`
        some (if res = .again then s' else { s' with pc := .pairWrite })
      else none
    | .pairWrite =>
      if (res.count : ℤ) ≤ s.dataInLen then
        -- made without `--tee` too
        let s' := { s.put o.teeFd s.dataInLen res with len := res.val }
        some (if res = .again then s' else s'.afterStdin)
      else none
    | .stdoutWrite =>
      if (res.count : ℤ) ≤ s.dataInLen then
        let s' := s.put .stdout s.dataInLen res
        some (if res.val = s.dataInLen then s'.roundEnd else { s' with pc := .exited })
      else none
    | _ => none

/-! ## What a trace says -/

/-- The octets of an event that `fd` has taken. -/
def Event.takenBy (fd : Fd) : Event → Octets
  | .write fd' data n => if fd' = fd then data.take n else []
  | .read _ _ => []

/-- The octets of an event that have been read from one of `fds`. -/
def Event.readFrom (fds : List Fd) : Event → Octets
  | .read fd data => if fd ∈ fds then data else []
  | .write _ _ _ => []

/-- The octets that `fd` has taken. -/
def takenBy (fd : Fd) (tr : List Event) : Octets := tr.flatMap (Event.takenBy fd)

/-- The octets that have been read from `fds`, in the order of their arrival. -/
def readFrom (fds : List Fd) (tr : List Event) : Octets := tr.flatMap (Event.readFrom fds)

/-- The last block that has been read. -/
def lastRead : List Event → Option (Fd × Octets)
  | [] => none
  | .read fd data :: tr => (lastRead tr).or (some (fd, data))
  | .write _ _ _ :: tr => lastRead tr

theorem takenBy_concat (fd : Fd) (tr : List Event) (e : Event) :
    takenBy fd (tr ++ [e]) = takenBy fd tr ++ e.takenBy fd := by
  simp [takenBy]

theorem readFrom_concat (fds : List Fd) (tr : List Event) (e : Event) :
    readFrom fds (tr ++ [e]) = readFrom fds tr ++ e.readFrom fds := by
  simp [readFrom]

/-- Nothing is taken of a block that goes elsewhere, or by a write that fails. -/
theorem takenBy_concat_none {fd fd' : Fd} (tr : List Event) {data : Octets} {n : ℕ} (h : fd' ≠ fd ∨ n = 0) :
    takenBy fd (tr ++ [.write fd' data n]) = takenBy fd tr := by
  have hnone : (Event.write fd' data n).takenBy fd = [] := by
    show (if fd' = fd then data.take n else []) = []
    rcases h with hne | rfl
    · rw [if_neg hne]
    · rw [List.take_zero, ite_self]
  rw [takenBy_concat, hnone, List.append_nil]

/-- A block that is taken whole. -/
theorem takenBy_concat_whole (fd : Fd) (tr : List Event) {data : Octets} {n : ℕ} (h : data.length ≤ n) :
    takenBy fd (tr ++ [.write fd data n]) = takenBy fd tr ++ data := by
  have hall : (Event.write fd data n).takenBy fd = data := by
    show (if fd = fd then data.take n else []) = data
    rw [if_pos rfl, List.take_of_length_le h]
  rw [takenBy_concat, hall]

theorem takenBy_concat_read (fd fd' : Fd) (tr : List Event) (data : Octets) :
    takenBy fd (tr ++ [.read fd' data]) = takenBy fd tr := by
  rw [takenBy_concat]
  exact List.append_nil _

theorem readFrom_concat_write (fds : List Fd) (fd : Fd) (tr : List Event) (data : Octets) (n : ℕ) :
    readFrom fds (tr ++ [.write fd data n]) = readFrom fds tr := by
  rw [readFrom_concat]
  exact List.append_nil _

theorem lastRead_concat (tr : List Event) (e : Event) :
    lastRead (tr ++ [e]) = match e with
      | .read fd data => some (fd, data)
      | .write _ _ _ => lastRead tr := by
  induction tr with
  | nil => cases e <;> rfl
  | cons e' tr ih =>
    cases e' with
    | read fd data =>
      rw [List.cons_append, lastRead, ih]
      cases e <;> rfl
    | write fd data n => exact ih

end Pipe
end Tipcutils
