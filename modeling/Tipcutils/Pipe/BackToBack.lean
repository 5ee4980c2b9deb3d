import Mathlib.Logic.Function.Basic
import Tipcutils.Pipe.Relay

/-!
# `Pipe.BackToBack` — two `tipc-pipe`s on one connection

A client and a server run `pipe_start` on the two ends of a connection with `SOCK_SEQPACKET`: each loop is that of
`Pipe.PipeStart`, and what the one writes to its socket is what the other receives there, message by message. A socket
holds `cap` messages; a write to a full one blocks, and while a program blocks it receives nothing. Both have the same
`buf_size`, so that no message is cut. Neither `stdin` comes to its end, and no call fails but the write to `fd_pair[1]`:
without `--tee` it has never been assigned, and here it holds no open descriptor (`unpaired`; if it holds `stdout` or
the socket, this write takes octets, see `Pipe.Channels`).

A round of the loop writes at most one message and receives at most one, and it receives none only if there was none
at its `poll`. Hence no more than `cap + 2` messages are under way in both directions together
(`Bounded`), and the two programs do not block each other where `cap` is 3 or more; with 2 they can
(**`backToBack_delivers_iff`**).
-/

namespace Tipcutils
namespace Pipe

open Function

/-! ## The two programs together -/

/-- The two ends of the connection. -/
inductive Side where
  | client
  | server
deriving DecidableEq

def Side.other : Side → Side
  | .client => .server
  | .server => .client

@[simp] theorem Side.other_other (p : Side) : p.other.other = p := by cases p <;> rfl

@[simp] theorem Side.other_ne (p : Side) : p.other ≠ p := by cases p <;> decide

theorem Side.eq_or_eq_other (p q : Side) : q = p ∨ q = p.other := by cases p <;> cases q <;> decide

deriving instance DecidableEq for Revents

/-- Without `--tee`; `fd_pair[1]` happens to hold `n`, which is no open descriptor. -/
def unpaired (bufSize : ℕ) (n : ℤ) : Opts := ⟨false, bufSize, .other n⟩

/-- Both programs. -/
structure Linked where
  side : Side → State
  /-- what is still to come on `stdin` -/
  input : Side → Octets
  /-- the messages that wait on the socket of a side -/
  queue : Side → List Octets

namespace Linked

variable (s : Linked) (p : Side)

/-- What `poll` reports: `stdin` and the socket are readable when there is something to read, and nobody hangs up. -/
def ready : Revents := ⟨!(s.input p).isEmpty, false, !(s.queue p).isEmpty, false, false⟩

/-- The outcomes that a call can have: `poll` returns when something is readable, a block of `stdin` is as the
    terminal has it, a receive yields the next message, a write to the socket takes the whole block as soon as there is
    room, `stdout` takes everything, and the write to `fd_pair[1]`, which is no open descriptor, fails with `EBADF`. -/
def Answers (cap : ℕ) (l : Label) : Prop :=
  match (s.side p).pc, l with
  | .poll, .poll r => r = some (s.ready p) ∧ (s.input p ≠ [] ∨ s.queue p ≠ [])
  | .stdinRead, .read (some data) => data ≠ [] ∧ data <+: s.input p
  | .tipcRecv, .read (some data) => (s.queue p).head? = some data
  | .tipcWrite, .write res => res = .taken (s.side p).block.length ∧ (s.queue p.other).length < cap
  | .pairWrite, .write res => res = .failed
  | .stdoutWrite, .write res => res = .taken (s.side p).block.length
  | _, _ => False

instance (cap : ℕ) (l : Label) : Decidable (s.Answers p cap l) := by
  unfold Answers
  split <;> infer_instance

/-- What is still to come on `stdin` after the call. -/
def inputAfter (l : Label) : Octets :=
  match (s.side p).pc, l with
  | .stdinRead, .read (some data) => (s.input p).drop data.length
  | _, _ => s.input p

/-- The messages that wait after the call: a receive takes one, a write to the socket brings one to the other side. -/
def queueAfter : Side → List Octets :=
  match (s.side p).pc with
  | .tipcRecv => update s.queue p (s.queue p).tail
  | .tipcWrite => update s.queue p.other (s.queue p.other ++ [(s.side p).block])
  | _ => s.queue

end Linked

/-- One call of one of the programs. -/
def Linked.step (o : Opts) (cap : ℕ) (s : Linked) (l : Side × Label) : Option Linked :=
  if s.Answers l.1 cap l.2 then
    (Pipe.step o (s.side l.1) l.2).map fun t =>
      ⟨update s.side l.1 t, update s.input l.1 (s.inputAfter l.1 l.2), s.queueAfter l.1⟩
  else none

/-- Before the first call. -/
def Linked.start (o : Opts) (buf : Octets) (input : Side → Octets) : Linked :=
  ⟨fun _ => Pipe.start o buf, input, fun _ => []⟩

/-! ## Moves -/

variable {o : Opts} {cap : ℕ} {s s' : Linked} {p : Side}

/-- `poll` has reported no hangup, and what was read last is as long as `data_in_len` says. -/
structure Steady (t : State) : Prop where
  hup0 : t.revents.hup0 = false
  hup1 : t.revents.hup1 = false
  whole : t.pc = .tipcWrite ∨ t.pc = .pairWrite ∨ t.pc = .stdoutWrite → t.dataInLen = t.block.length

/-- A call that only moves the program counter, to one where no block is in flight. -/
theorem Steady.idle {t t' : State} (h : Steady t) (hidle : t'.pc.Idle) (hrevents : t'.revents = t.revents) : Steady t' where
  hup0 := by rw [hrevents, h.hup0]
  hup1 := by rw [hrevents, h.hup1]
  whole := by
    intro hpc
    rcases hpc with hpc | hpc | hpc <;> rw [hpc] at hidle <;> exact absurd hidle (by decide)

/-- A call after which a block is in flight. -/
theorem Steady.carry {t t' : State} (h : Steady t) (hrevents : t'.revents = t.revents)
    (hlen : t'.dataInLen = t'.block.length) : Steady t' where
  hup0 := by rw [hrevents, h.hup0]
  hup1 := by rw [hrevents, h.hup1]
  whole := fun _ => hlen

namespace Linked

/-- What a call does. -/
inductive Moved (o : Opts) (cap : ℕ) (s : Linked) : Linked → Prop where
  | poll (p : Side) (t : State) (hpc : (s.side p).pc = .poll) (hready : s.input p ≠ [] ∨ s.queue p ≠ [])
      (hnext : t.pc = if s.input p = [] then .tipcRecv else .stdinRead) (hrevents : t.revents = s.ready p)
      (htrace : t.trace = (s.side p).trace) (ht : Steady t) : Moved o cap s ⟨update s.side p t, s.input, s.queue⟩
  | stdin (p : Side) (t : State) (data rest : Octets) (hpc : (s.side p).pc = .stdinRead) (hne : data ≠ [])
      (hinput : s.input p = data ++ rest) (hlen : data.length ≤ o.bufSize) (hnext : t.pc = .tipcWrite)
      (hblock : t.block = data) (hrevents : t.revents = (s.side p).revents)
      (htrace : t.trace = (s.side p).trace ++ [.read .stdin data]) (ht : Steady t) :
      Moved o cap s ⟨update s.side p t, update s.input p rest, s.queue⟩
  | send (p : Side) (t : State) (hpc : (s.side p).pc = .tipcWrite) (hroom : (s.queue p.other).length < cap)
      (hnext : t.pc = .pairWrite) (hblock : t.block = (s.side p).block) (hrevents : t.revents = (s.side p).revents)
      (htrace : t.trace = (s.side p).trace ++ [.write .tipc (s.side p).block (s.side p).block.length]) (ht : Steady t) :
      Moved o cap s ⟨update s.side p t, s.input, update s.queue p.other (s.queue p.other ++ [(s.side p).block])⟩
  | pair (p : Side) (t : State) (data : Octets) (hpc : (s.side p).pc = .pairWrite)
      (hnext : t.pc = if (s.side p).revents.in1 then .tipcRecv else .poll)
      (hrevents : t.revents = (s.side p).revents)
      (htrace : t.trace = (s.side p).trace ++ [.write o.teeFd data 0]) (ht : Steady t) :
      Moved o cap s ⟨update s.side p t, s.input, s.queue⟩
  | receive (p : Side) (t : State) (msg : Octets) (msgs : List Octets) (hpc : (s.side p).pc = .tipcRecv)
      (hqueue : s.queue p = msg :: msgs) (hnext : t.pc = .stdoutWrite) (hblock : t.block = msg)
      (hrevents : t.revents = (s.side p).revents) (htrace : t.trace = (s.side p).trace ++ [.read .tipc msg]) (ht : Steady t) :
      Moved o cap s ⟨update s.side p t, s.input, update s.queue p msgs⟩
  | stdout (p : Side) (t : State) (hpc : (s.side p).pc = .stdoutWrite) (hnext : t.pc = .poll)
      (hrevents : t.revents = (s.side p).revents)
      (htrace : t.trace = (s.side p).trace ++ [.write .stdout (s.side p).block (s.side p).block.length]) (ht : Steady t) :
      Moved o cap s ⟨update s.side p t, s.input, s.queue⟩

/-- Without a hangup, a round ends with the next `poll`. -/
theorem roundEnd_steady {t : State} (h0 : t.revents.hup0 = false) (h1 : t.revents.hup1 = false) :
    t.roundEnd = { t with pc := .poll } := by
  rw [State.roundEnd, h0, h1, if_neg (by simp)]

theorem afterStdin_steady (t : State) (h0 : t.revents.hup0 = false) (h1 : t.revents.hup1 = false) :
    t.afterStdin = { t with pc := if t.revents.in1 then .tipcRecv else .poll } := by
  unfold State.afterStdin
  split
  · rfl
  · exact roundEnd_steady h0 h1

/-- A round begins with `stdin`, if there is something to read. -/
theorem afterPoll_ready (o : Opts) (s : Linked) (h : s.input p ≠ [] ∨ s.queue p ≠ []) (t : State)
    (ht : t.revents = s.ready p) :
    t.afterPoll o = { t with pc := if s.input p = [] then .tipcRecv else .stdinRead } := by
  have hnotee : ¬ (o.tee = true ∧ t.revents.in2 = true) := by
    rw [ht]
    exact fun h => Bool.noConfusion h.2
  rw [State.afterPoll, if_neg hnotee, State.afterTee, ht]
  by_cases hin : s.input p = []
  · have hsocket : (s.ready p).in1 = true := by
      simpa [ready] using h.resolve_left (not_not.mpr hin)
    have hstdin : (s.ready p).in0 = false := by simp [ready, hin]
    rw [hstdin, if_neg Bool.false_ne_true, State.afterStdin, ht, if_pos hsocket, if_pos hin]
  · have hstdin : (s.ready p).in0 = true := by simpa [ready] using hin
    rw [if_pos hstdin, if_neg hin]

theorem step_moved {l : Label} (h : Steady (s.side p)) (hs : s.step o cap (p, l) = some s') : Moved o cap s s' := by
  obtain ⟨ha, hs⟩ := Option.ite_none_right_eq_some.mp hs
  obtain ⟨t, ht, rfl⟩ := Option.map_eq_some_iff.mp hs
  clear hs
  dsimp only at ha ht ⊢
  unfold Answers at ha
  split at ha
  next r hpc =>
    obtain ⟨rfl, hready⟩ := ha
    simp only [Pipe.step, hpc] at ht
    obtain rfl := Option.some.inj ht
    simp only [inputAfter, queueAfter, hpc, update_eq_self]
    have hpoll (t : State) (ht : t.revents = s.ready p) := afterPoll_ready o s hready t ht
    rw [hpoll _ rfl]
    refine .poll p _ hpc hready rfl rfl rfl ⟨rfl, rfl, ?_⟩
    intro hnext
    dsimp only at hnext
    split at hnext <;> simp at hnext
  next data hpc =>
    obtain ⟨hne, rest, hrest⟩ := ha
    obtain ⟨hlen, ht⟩ := Option.ite_none_right_eq_some.mp ht
    simp only [hpc] at ht
    obtain rfl := Option.some.inj ht
    have hinput : s.inputAfter p (.read (some data)) = rest := by
      simp only [inputAfter, hpc, ← hrest, List.drop_left]
    have hblock := take_fill hlen (s.side p) .stdin
    rw [hinput]
    simp only [queueAfter, hpc]
    exact .stdin p _ data rest hpc hne hrest.symm hlen rfl hblock rfl rfl
      (h.carry rfl (congrArg (fun b : Octets => (b.length : ℤ)) hblock.symm))
  next data hpc =>
    obtain ⟨msgs, hqueue⟩ := List.head?_eq_some_iff.mp ha
    obtain ⟨hlen, ht⟩ := Option.ite_none_right_eq_some.mp ht
    simp only [hpc] at ht
    obtain rfl := Option.some.inj ht
    have hblock := take_fill hlen (s.side p) .tipc
    simp only [inputAfter, queueAfter, hpc, update_eq_self, hqueue, List.tail_cons]
    exact .receive p _ data msgs hpc hqueue rfl hblock rfl rfl
      (h.carry rfl (congrArg (fun b : Octets => (b.length : ℤ)) hblock.symm))
  next res hpc =>
    obtain ⟨rfl, hroom⟩ := ha
    simp only [Pipe.step, hpc] at ht
    obtain ⟨hcount, ht⟩ := Option.ite_none_right_eq_some.mp ht
    obtain rfl := Option.some.inj ht
    have hblock : (s.side p).block = (s.side p).buf.take (s.side p).dataInLen.toNat := by rw [State.block, hpc]
    simp only [inputAfter, queueAfter, hpc, update_eq_self]
    refine .send p _ hpc hroom rfl hblock.symm rfl (by rw [hblock]; rfl) (h.carry rfl ?_)
    exact (h.whole (.inl hpc)).trans (congrArg (fun b : Octets => (b.length : ℤ)) hblock)
  next res hpc =>
    obtain rfl := ha
    simp only [Pipe.step, hpc] at ht
    obtain ⟨hcount, ht⟩ := Option.ite_none_right_eq_some.mp ht
    obtain rfl := Option.some.inj ht
    simp only [inputAfter, queueAfter, hpc, update_eq_self]
    have hafter (t : State) (hr : t.revents = (s.side p).revents) : t.afterStdin =
        { t with pc := if t.revents.in1 then .tipcRecv else .poll } :=
      afterStdin_steady t (by rw [hr, h.hup0]) (by rw [hr, h.hup1])
    rw [if_neg (by decide), hafter]
    · refine .pair p _ _ hpc rfl rfl rfl (h.idle ?_ rfl)
      dsimp only
      split <;> decide
    · rfl
  next res hpc =>
    obtain rfl := ha
    simp only [Pipe.step, hpc] at ht
    obtain ⟨hcount, ht⟩ := Option.ite_none_right_eq_some.mp ht
    obtain rfl := Option.some.inj ht
    have hblock : (s.side p).block = (s.side p).buf.take (s.side p).dataInLen.toNat := by rw [State.block, hpc]
    have hwhole : (WriteRes.taken (s.side p).block.length).val = (s.side p).dataInLen :=
      (h.whole (.inr (.inr hpc))).symm
    simp only [inputAfter, queueAfter, hpc, update_eq_self]
    have hround (t : State) (hr : t.revents = (s.side p).revents) : t.roundEnd = { t with pc := .poll } :=
      roundEnd_steady (by rw [hr, h.hup0]) (by rw [hr, h.hup1])
    rw [if_pos hwhole, hround]
    · exact .stdout p _ hpc rfl rfl (by rw [hblock]; rfl) (h.idle (show Pc.Idle .poll by decide) rfl)
    · rfl
  next => exact ha.elim

/-! ## What one side knows -/

/-- The calls that are made. -/
def calls : List Pc := [.poll, .stdinRead, .tipcWrite, .pairWrite, .tipcRecv, .stdoutWrite]

/-- One side, with what is still to come on its `stdin` and what waits on its socket. -/
structure Local (o : Opts) (t : State) (input : Octets) (queue : List Octets) : Prop where
  steady : Steady t
  known : t.pc ∈ calls
  stdin : t.pc = .stdinRead → input ≠ []
  /-- what `poll` has reported is there until it is received -/
  socket : t.pc ∈ [Pc.stdinRead, .tipcWrite, .pairWrite, .tipcRecv] → t.revents.in1 = true → queue ≠ []
  recv : t.pc = .tipcRecv → t.revents.in1 = true
  messages : ∀ msg ∈ queue, msg.length ≤ o.bufSize
  block : t.block.length ≤ o.bufSize

theorem Local.push {t : State} {input : Octets} {queue : List Octets} {msg : Octets} (h : Local o t input queue)
    (hmsg : msg.length ≤ o.bufSize) : Local o t input (queue ++ [msg]) :=
  { h with
    socket := fun _ _ => List.append_ne_nil_of_right_ne_nil _ (List.cons_ne_nil _ _)
    messages := by
      intro m hm
      rcases List.mem_append.mp hm with hm | hm
      · exact h.messages m hm
      · rw [List.mem_singleton.mp hm]
        exact hmsg }

theorem Local.of_idle {t : State} {input : Octets} {queue : List Octets} (hsteady : Steady t) (hidle : t.pc.Idle)
    (hknown : t.pc ∈ calls) (hstdin : t.pc = .stdinRead → input ≠ [])
    (hsocket : t.pc ∈ [Pc.stdinRead, .tipcRecv] → t.revents.in1 = true → queue ≠ [])
    (hrecv : t.pc = .tipcRecv → t.revents.in1 = true)
    (hmessages : ∀ msg ∈ queue, msg.length ≤ o.bufSize) : Local o t input queue where
  steady := hsteady
  known := hknown
  stdin := hstdin
  socket := by
    intro hmem
    apply hsocket
    generalize t.pc = pc at hmem hidle
    revert hmem hidle
    cases pc <;> decide
  recv := hrecv
  messages := hmessages
  block := by
    have hnone : t.block = [] := by
      unfold State.block
      split
      next hpc => rw [hpc] at hidle; exact absurd hidle (by decide)
      next hpc => rw [hpc] at hidle; exact absurd hidle (by decide)
      next hpc => rw [hpc] at hidle; exact absurd hidle (by decide)
      next hpc => rw [hpc] at hidle; exact absurd hidle (by decide)
      next => rfl
    rw [hnone]
    exact Nat.zero_le _

/-- Both sides. -/
def Locals (o : Opts) (s : Linked) : Prop := ∀ p, Local o (s.side p) (s.input p) (s.queue p)

theorem Locals.update (h : Locals o s) {t : State} {input : Octets} {queue : List Octets}
    (hp : Local o t input queue) :
    Locals o ⟨update s.side p t, Function.update s.input p input, Function.update s.queue p queue⟩ := by
  intro q
  dsimp only
  rcases eq_or_ne q p with rfl | hne
  · rw [update_self, update_self, update_self]
    exact hp
  · rw [update_of_ne hne, update_of_ne hne, update_of_ne hne]
    exact h q

theorem Locals.moved (h : Locals o s) (hm : Moved o cap s s') : Locals o s' := by
  cases hm with
  | poll p t hpc hready hnext hrevents htrace ht =>
      have hsocket : t.pc ∈ [Pc.stdinRead, .tipcRecv] → t.revents.in1 = true → s.queue p ≠ [] := by
        rw [hrevents]
        simp [ready]
      have hp : Local o t (s.input p) (s.queue p) := by
        by_cases hin : s.input p = []
        · rw [if_pos hin] at hnext
          refine .of_idle ht (by rw [hnext]; decide) (by rw [hnext]; decide) (by rw [hnext]; nofun) hsocket ?_
            (h p).messages
          intro _
          rw [hrevents]
          simpa [ready] using hready.resolve_left (not_not.mpr hin)
        · rw [if_neg hin] at hnext
          exact .of_idle ht (by rw [hnext]; decide) (by rw [hnext]; decide) (fun _ => hin) hsocket
            (by rw [hnext]; nofun) (h p).messages
      have hall := h.update (p := p) hp
      rwa [update_eq_self, update_eq_self] at hall
  | stdin p t data rest hpc hne hinput hlen hnext hblock hrevents htrace ht =>
      have hp : Local o t rest (s.queue p) :=
        { steady := ht
          known := by rw [hnext]; decide
          stdin := by rw [hnext]; nofun
          socket := fun _ hin => (h p).socket (by rw [hpc]; decide) (hrevents ▸ hin)
          recv := by rw [hnext]; nofun
          messages := (h p).messages
          block := by rw [hblock]; exact hlen }
      have hall := h.update (p := p) hp
      rwa [update_eq_self p s.queue] at hall
  | send p t hpc hroom hnext hblock hrevents htrace ht =>
      have hp : Local o t (s.input p) (s.queue p) :=
        { steady := ht
          known := by rw [hnext]; decide
          stdin := by rw [hnext]; nofun
          socket := fun _ hin => (h p).socket (by rw [hpc]; decide) (hrevents ▸ hin)
          recv := by rw [hnext]; nofun
          messages := (h p).messages
          block := by rw [hblock]; exact (h p).block }
      have hall := h.update (p := p) hp
      rw [update_eq_self, update_eq_self] at hall
      have hpush := hall.update (p := p.other) ((hall p.other).push (h p).block)
      dsimp only at hpush
      rwa [update_eq_self, update_eq_self] at hpush
  | pair p t data hpc hnext hrevents htrace ht =>
      have hidle : t.pc.Idle ∧ t.pc ∈ calls ∧ t.pc ≠ .stdinRead := by
        rw [hnext]
        split <;> decide
      have hp : Local o t (s.input p) (s.queue p) := by
        refine .of_idle ht hidle.1 hidle.2.1 (fun hpc' => absurd hpc' hidle.2.2) ?_ ?_ (h p).messages
        · intro _ hin
          exact (h p).socket (by rw [hpc]; decide) (hrevents ▸ hin)
        · intro hrecv
          rw [hrevents]
          by_contra hin
          rw [if_neg hin] at hnext
          rw [hnext] at hrecv
          cases hrecv
      have hall := h.update (p := p) hp
      rwa [update_eq_self, update_eq_self] at hall
  | receive p t msg msgs hpc hqueue hnext hblock hrevents htrace ht =>
      have hmem : ∀ m ∈ msg :: msgs, m.length ≤ o.bufSize := hqueue ▸ (h p).messages
      have hp : Local o t (s.input p) msgs :=
        { steady := ht
          known := by rw [hnext]; decide
          stdin := by rw [hnext]; nofun
          socket := fun hpc' => absurd hpc' (by rw [hnext]; decide)
          recv := by rw [hnext]; nofun
          messages := (List.forall_mem_cons.mp hmem).2
          block := by rw [hblock]; exact (List.forall_mem_cons.mp hmem).1 }
      have hall := h.update (p := p) hp
      rwa [update_eq_self p s.input] at hall
  | stdout p t hpc hnext hrevents htrace ht =>
      have hp : Local o t (s.input p) (s.queue p) :=
        .of_idle ht (by rw [hnext]; decide) (by rw [hnext]; decide) (by rw [hnext]; nofun)
          (fun hpc' => absurd hpc' (by rw [hnext]; decide)) (by rw [hnext]; nofun) (h p).messages
      have hall := h.update (p := p) hp
      rwa [update_eq_self, update_eq_self] at hall

/-! ## How many messages are under way -/

/-- A message that is still to be written in a round that receives none. -/
def gain (t : State) : ℕ := if (t.pc = .stdinRead ∨ t.pc = .tipcWrite) ∧ t.revents.in1 = false then 1 else 0

/-- A message that is still to be received in a round that has written one, if it writes one. -/
def due (t : State) : ℕ := if (t.pc = .pairWrite ∨ t.pc = .tipcRecv) ∧ t.revents.in1 = true then 1 else 0

/-- No socket holds more than `cap` messages, and both together not many more. -/
structure Bounded (cap : ℕ) (s : Linked) : Prop where
  room : ∀ p, (s.queue p).length ≤ cap
  total : ∀ p, (s.queue p).length + (s.queue p.other).length + gain (s.side p) + gain (s.side p.other) ≤
    cap + 2 + due (s.side p) + due (s.side p.other)

theorem gain_le (t : State) : gain t ≤ 1 := by
  unfold gain
  split <;> decide

/-- What is under way, counted from either side. -/
theorem Bounded.of_side (hroom : ∀ p, (s.queue p).length ≤ cap) (p : Side)
    (htotal : (s.queue p).length + (s.queue p.other).length + gain (s.side p) + gain (s.side p.other) ≤
      cap + 2 + due (s.side p) + due (s.side p.other)) : Bounded cap s := by
  refine ⟨hroom, ?_⟩
  intro q
  rcases Side.eq_or_eq_other p q with rfl | rfl
  · exact htotal
  · rw [Side.other_other]
    omega

/-- A call that leaves the queues alone. -/
theorem Bounded.side (h : Bounded cap s) (p : Side) {t : State} {input : Side → Octets}
    (ht : gain t + due (s.side p) ≤ gain (s.side p) + due t) : Bounded cap ⟨update s.side p t, input, s.queue⟩ := by
  refine .of_side h.room p ?_
  have htotal := h.total p
  dsimp only
  rw [update_self, update_of_ne (Side.other_ne p)]
  omega

theorem Bounded.moved (h : Bounded cap s) (hl : Locals o s) (hm : Moved o cap s s') : Bounded cap s' := by
  cases hm with
  | poll p t hpc hready hnext hrevents htrace ht =>
      by_cases hq : s.queue p = []
      · -- nothing is received in this round, and so far nothing is under way to this side
        refine .of_side h.room p ?_
        have hother := h.room p.other
        have hgain := gain_le (s.side p.other)
        have hgain' := gain_le t
        dsimp only
        rw [update_self, update_of_ne (Side.other_ne p), hq, List.length_nil]
        omega
      · have hin1 : t.revents.in1 = true := by
          rw [hrevents]
          simpa [ready] using hq
        apply h.side p
        simp [gain, due, hin1, hpc]
  | stdin p t data rest hpc hne hinput hlen hnext hblock hrevents htrace ht =>
      apply h.side p
      simp [gain, due, hpc, hnext, hrevents]
  | send p t hpc hroom hnext hblock hrevents htrace ht =>
      have hne := Side.other_ne p
      refine .of_side ?_ p ?_
      · intro q
        dsimp only
        rcases eq_or_ne q p.other with rfl | hq
        · rw [update_self, List.length_append, List.length_singleton]
          exact hroom
        · rw [update_of_ne hq]
          exact h.room q
      · have htotal := h.total p
        have hcount : gain t + due (s.side p) + 1 = gain (s.side p) + due t := by
          cases hin : (s.side p).revents.in1 <;> simp [gain, due, hpc, hnext, hrevents, hin]
        dsimp only
        rw [update_self, update_of_ne hne, update_self, update_of_ne hne.symm, List.length_append,
          List.length_singleton]
        omega
  | pair p t data hpc hnext hrevents htrace ht =>
      apply h.side p
      cases hin : (s.side p).revents.in1 <;> simp [gain, due, hpc, hnext, hrevents, hin]
  | receive p t msg msgs hpc hqueue hnext hblock hrevents htrace ht =>
      have hne := Side.other_ne p
      have hin := (hl p).recv hpc
      have hlen : (s.queue p).length = msgs.length + 1 := congrArg List.length hqueue
      refine .of_side ?_ p ?_
      · intro q
        have hq := h.room q
        dsimp only
        rcases eq_or_ne q p with rfl | hqne
        · rw [update_self]
          omega
        · rwa [update_of_ne hqne]
      · have htotal := h.total p
        have hcount : gain t + due (s.side p) = gain (s.side p) + due t + 1 := by
          simp [gain, due, hpc, hnext, hin]
        dsimp only
        rw [update_self, update_of_ne hne, update_self, update_of_ne hne]
        omega
  | stdout p t hpc hnext hrevents htrace ht =>
      apply h.side p
      simp [gain, due, hpc, hnext]

/-! ## No octet is lost -/

/-- What is on `stdout`, and what is in flight to it. -/
def shown (t : State) : Octets := takenBy .stdout t.trace ++ t.owes .stdout

/-- What has been typed on a side, and where it is now: on `stdout` of the other side or in flight to it, on the
    socket, in flight to the socket, or still to come. -/
def Conserved (typed : Side → Octets) (s : Linked) : Prop :=
  ∀ p, shown (s.side p.other) ++ (s.queue p.other).flatten ++ (s.side p).owes .tipc ++ s.input p = typed p

/-- What a call of one side has to keep. -/
theorem Conserved.side {typed : Side → Octets} (h : Conserved typed s) (p : Side) {t : State} {input : Side → Octets}
    {queue : Side → List Octets}
    (hsend : (queue p.other).flatten ++ t.owes .tipc ++ input p =
      (s.queue p.other).flatten ++ (s.side p).owes .tipc ++ s.input p)
    (hrecv : shown t ++ (queue p).flatten = shown (s.side p) ++ (s.queue p).flatten)
    (hinput : input p.other = s.input p.other) : Conserved typed ⟨update s.side p t, input, queue⟩ := by
  intro q
  have hq := h q
  dsimp only
  rcases Side.eq_or_eq_other p q with rfl | rfl
  · rw [update_self, update_of_ne (Side.other_ne q), ← hq]
    simp only [List.append_assoc] at hsend ⊢
    rw [hsend]
  · rw [Side.other_other] at hq ⊢
    rw [update_self, update_of_ne (Side.other_ne p), hrecv, hinput]
    exact hq

/-- A read leaves what `stdout` has taken as it is. -/
theorem takenBy_read {t t' : State} {fd : Fd} {data : Octets} (htrace : t'.trace = t.trace ++ [.read fd data]) :
    takenBy .stdout t'.trace = takenBy .stdout t.trace := by
  rw [htrace, takenBy_concat_read]

theorem Conserved.moved {typed : Side → Octets} (h : Conserved typed s) (hm : Moved o cap s s') :
    Conserved typed s' := by
  cases hm with
  | poll p t hpc hready hnext hrevents htrace ht =>
      have hidle : t.pc.Idle := by
        rw [hnext]
        split <;> decide
      have hidle' : (s.side p).pc.Idle := by rw [hpc]; decide
      apply h.side p
      · rw [owes_of_idle hidle, owes_of_idle hidle']
      · rw [shown, shown, owes_of_idle hidle, owes_of_idle hidle', htrace]
      · rfl
  | stdin p t data rest hpc hne hinput hlen hnext hblock hrevents htrace ht =>
      have hidle : (s.side p).pc.Idle := by rw [hpc]; decide
      have howes : t.owes .tipc = data := by rw [← hblock]; simp only [State.owes, hnext]
      have hnone : t.owes .stdout = [] := by simp only [State.owes, hnext]
      apply h.side p
      · rw [howes, owes_of_idle hidle, update_self, hinput, List.append_nil, List.append_assoc]
      · rw [shown, shown, hnone, owes_of_idle hidle, takenBy_read htrace]
      · rw [update_of_ne (Side.other_ne p)]
  | send p t hpc hroom hnext hblock hrevents htrace ht =>
      have hne := Side.other_ne p
      have howes : (s.side p).owes .tipc = (s.side p).block := by simp only [State.owes, hpc]
      have hnone : (s.side p).owes .stdout = [] := by simp only [State.owes, hpc]
      have hnone' : ∀ fd, t.owes fd = [] := fun fd => by simp only [State.owes, hnext]
      apply h.side p
      · rw [howes, hnone', update_self, List.flatten_append, List.flatten_singleton, List.append_nil]
      · rw [shown, shown, hnone, hnone', htrace, takenBy_concat_none _ (.inl (by decide)), update_of_ne hne.symm]
      · rfl
  | pair p t data hpc hnext hrevents htrace ht =>
      have hidle : t.pc.Idle := by
        rw [hnext]
        split <;> decide
      have hnone : ∀ fd, (s.side p).owes fd = [] := fun fd => by simp only [State.owes, hpc]
      apply h.side p
      · rw [hnone, owes_of_idle hidle]
      · rw [shown, shown, hnone, owes_of_idle hidle, htrace, takenBy_concat_none _ (.inr rfl)]
      · rfl
  | receive p t msg msgs hpc hqueue hnext hblock hrevents htrace ht =>
      have hidle : (s.side p).pc.Idle := by rw [hpc]; decide
      have howes : t.owes .stdout = msg := by rw [← hblock]; simp only [State.owes, hnext]
      have hnone : t.owes .tipc = [] := by simp only [State.owes, hnext]
      apply h.side p
      · rw [hnone, owes_of_idle hidle, update_of_ne (Side.other_ne p)]
      · rw [shown, shown, howes, owes_of_idle hidle, takenBy_read htrace, update_self, hqueue, List.flatten_cons,
          List.append_nil, List.append_assoc]
      · rfl
  | stdout p t hpc hnext hrevents htrace ht =>
      have hidle : t.pc.Idle := by rw [hnext]; decide
      have howes : (s.side p).owes .stdout = (s.side p).block := by simp only [State.owes, hpc]
      have hnone : (s.side p).owes .tipc = [] := by simp only [State.owes, hpc]
      apply h.side p
      · rw [hnone, owes_of_idle hidle]
      · rw [shown, shown, howes, owes_of_idle hidle, htrace, takenBy_concat_whole _ _ (Nat.le_refl _), List.append_nil]
      · rfl

/-! ## Every run ends -/

/-- What one call costs at most, until the next one. -/
def left : Pc → ℕ
  | .tipcWrite => 9
  | .pairWrite => 3
  | .stdoutWrite => 2
  | .poll => 1
  | _ => 0

/-- What a side has before it. -/
def rank (s : Linked) : ℕ :=
  10 * ((s.input .client).length + (s.input .server).length) +
    5 * ((s.queue .client).length + (s.queue .server).length) + left (s.side .client).pc + left (s.side .server).pc

theorem rank_update (s : Linked) (p q : Side) (t : State) (input : Octets) (queue : List Octets) :
    rank ⟨update s.side p t, update s.input p input, update s.queue q queue⟩ + 10 * (s.input p).length +
        5 * (s.queue q).length + left (s.side p).pc =
      s.rank + 10 * input.length + 5 * queue.length + left t.pc := by
  cases p <;> cases q <;> simp [rank] <;> omega

/-- A call that leaves `stdin` and the queues alone. -/
theorem rank_side (s : Linked) (p : Side) {t : State} (ht : left t.pc < left (s.side p).pc) :
    rank ⟨update s.side p t, s.input, s.queue⟩ < s.rank := by
  have hrank := s.rank_update p p t (s.input p) (s.queue p)
  rw [update_eq_self, update_eq_self] at hrank
  omega

theorem Moved.rank_lt (hm : Moved o cap s s') : s'.rank < s.rank := by
  cases hm with
  | poll p t hpc hready hnext hrevents htrace ht =>
      apply s.rank_side p
      rw [hnext, hpc]
      split <;> decide
  | stdin p t data rest hpc hne hinput hlen hnext hblock hrevents htrace ht =>
      have hrank := s.rank_update p p t rest (s.queue p)
      have hpos : 0 < data.length := List.length_pos_iff.mpr hne
      rw [update_eq_self p s.queue, hpc, hnext, hinput, List.length_append] at hrank
      simp only [left] at hrank
      omega
  | send p t hpc hroom hnext hblock hrevents htrace ht =>
      have hrank := s.rank_update p p.other t (s.input p) (s.queue p.other ++ [(s.side p).block])
      rw [update_eq_self, hpc, hnext, List.length_append, List.length_singleton] at hrank
      simp only [left] at hrank
      omega
  | pair p t data hpc hnext hrevents htrace ht =>
      apply s.rank_side p
      rw [hnext, hpc]
      split <;> decide
  | receive p t msg msgs hpc hqueue hnext hblock hrevents htrace ht =>
      have hrank := s.rank_update p p t (s.input p) msgs
      rw [update_eq_self p s.input, hpc, hnext, hqueue, List.length_cons] at hrank
      simp only [left] at hrank
      omega
  | stdout p t hpc hnext hrevents htrace ht =>
      apply s.rank_side p
      rw [hnext, hpc]
      decide

/-! ## Where both block -/

/-- The side has nothing to do, or its block does not fit. -/
def Waits (cap : ℕ) (s : Linked) (p : Side) : Prop :=
  (s.side p).pc = .poll ∧ s.input p = [] ∧ s.queue p = [] ∨ (s.side p).pc = .tipcWrite ∧ cap ≤ (s.queue p.other).length

theorem step_ne_none {l : Label} (ha : s.Answers p cap l) (ht : Pipe.step o (s.side p) l ≠ none) :
    s.step o cap (p, l) ≠ none := by
  rw [Linked.step, if_pos ha]
  exact fun hnone => ht (Option.map_eq_none_iff.mp hnone)

/-- A side that does not wait can make its next call. -/
theorem exists_step (ho : 0 < o.bufSize) (h : Local o (s.side p) (s.input p) (s.queue p)) (hw : ¬ Waits cap s p) :
    ∃ l, s.step o cap (p, l) ≠ none := by
  have hwhole := h.steady.whole
  have hknown := h.known
  simp only [calls, List.mem_cons, List.not_mem_nil, or_false] at hknown
  rcases hknown with hpc | hpc | hpc | hpc | hpc | hpc
  · have hready : s.input p ≠ [] ∨ s.queue p ≠ [] := by
      by_contra hnone
      rw [not_or, not_not, not_not] at hnone
      exact hw (.inl ⟨hpc, hnone⟩)
    refine ⟨.poll (some (s.ready p)), step_ne_none ?_ ?_⟩
    · simp only [Answers, hpc]
      exact ⟨trivial, hready⟩
    · simp only [Pipe.step, hpc]
      exact Option.some_ne_none _
  · obtain ⟨c, rest, hinput⟩ := List.exists_cons_of_ne_nil (h.stdin hpc)
    refine ⟨.read (some [c]), step_ne_none ?_ ?_⟩
    · simp only [Answers, hpc]
      exact ⟨List.cons_ne_nil _ _, rest, hinput.symm⟩
    · rw [Pipe.step, if_pos (show [c].length ≤ o.bufSize from ho)]
      simp only [hpc]
      exact Option.some_ne_none _
  · have hroom : (s.queue p.other).length < cap := by
      by_contra hfull
      exact hw (.inr ⟨hpc, Nat.le_of_not_lt hfull⟩)
    refine ⟨.write (.taken (s.side p).block.length), step_ne_none ?_ ?_⟩
    · simp only [Answers, hpc]
      exact ⟨trivial, hroom⟩
    · simp only [Pipe.step, hpc]
      rw [if_pos]
      · exact Option.some_ne_none _
      · exact Int.le_of_eq (hwhole (.inl hpc)).symm
  · refine ⟨.write .failed, step_ne_none ?_ ?_⟩
    · simp only [Answers, hpc]
    · simp only [Pipe.step, hpc]
      rw [if_pos]
      · exact Option.some_ne_none _
      · rw [hwhole (.inr (.inl hpc))]
        exact Int.natCast_nonneg _
  · have hqueue := h.socket (by rw [hpc]; decide) (h.recv hpc)
    obtain ⟨msg, msgs, hqueue⟩ := List.exists_cons_of_ne_nil hqueue
    have hlen : msg.length ≤ o.bufSize := h.messages msg (by rw [hqueue]; exact List.mem_cons_self)
    refine ⟨.read (some msg), step_ne_none ?_ ?_⟩
    · simp only [Answers, hpc, hqueue, List.head?_cons]
    · rw [Pipe.step, if_pos hlen]
      simp only [hpc]
      exact Option.some_ne_none _
  · refine ⟨.write (.taken (s.side p).block.length), step_ne_none ?_ ?_⟩
    · simp only [Answers, hpc]
    · simp only [Pipe.step, hpc]
      rw [if_pos]
      · exact Option.some_ne_none _
      · exact Int.le_of_eq (hwhole (.inr (.inr hpc))).symm

/-- With room for three messages, no two blocks that do not fit are in flight at once. -/
theorem idle_of_waits (hcap : 3 ≤ cap) (hb : Bounded cap s) (hw : ∀ p, Waits cap s p) (p : Side) :
    (s.side p).pc = .poll ∧ s.input p = [] ∧ s.queue p = [] := by
  refine (hw p).resolve_right ?_
  rintro ⟨hpc, hfull⟩
  rcases hw p.other with ⟨-, -, hnone⟩ | ⟨hpc', hfull'⟩
  · rw [hnone, List.length_nil] at hfull
    omega
  · have htotal := hb.total p
    have hdue : due (s.side p) = 0 := by simp [due, hpc]
    have hdue' : due (s.side p.other) = 0 := by simp [due, hpc']
    rw [Side.other_other] at hfull'
    omega

/-! ## Runs -/

/-- What holds in every run. -/
structure Inv (o : Opts) (cap : ℕ) (typed : Side → Octets) (s : Linked) : Prop where
  locals : Locals o s
  bounded : Bounded cap s
  conserved : Conserved typed s

theorem Inv.step {typed : Side → Octets} {l : Side × Label} (h : Inv o cap typed s) (hs : s.step o cap l = some s') :
    Inv o cap typed s' :=
  have hm := step_moved (h.locals l.1).steady hs
  ⟨h.locals.moved hm, h.bounded.moved h.locals hm, h.conserved.moved hm⟩

theorem inv_start (ho : o.tee = false) (buf : Octets) (input : Side → Octets) :
    Inv o cap input (Linked.start o buf input) := by
  have hpc : (Pipe.start o buf).pc = .poll := by simp [Pipe.start, ho]
  have hidle : (Pipe.start o buf).pc.Idle := by rw [hpc]; decide
  refine ⟨?_, ?_, ?_⟩
  · intro p
    refine .of_idle ⟨rfl, rfl, ?_⟩ hidle ?_ ?_ ?_ ?_ (List.forall_mem_nil _)
    all_goals simp [Linked.start, hpc, calls]
  · refine ⟨fun _ => Nat.zero_le _, ?_⟩
    intro p
    simp [Linked.start, gain, hpc]
  · intro p
    simp [Linked.start, shown, owes_of_idle hidle]
    rfl

/-- What one run does: it is short, and `stdout` only ever shows what has been typed on the other side. -/
theorem Inv.shows {typed : Side → Octets} (h : Inv o cap typed s) (p : Side) :
    takenBy .stdout (s.side p.other).trace <+: typed p := by
  rw [← h.conserved p, shown]
  simp only [List.append_assoc]
  exact List.prefix_append _ _

/-- Where neither side can go on, and there is room for three messages, everything has been delivered. -/
theorem Inv.delivered {typed : Side → Octets} (h : Inv o cap typed s) (ho : 0 < o.bufSize) (hcap : 3 ≤ cap)
    (hstuck : ∀ l, s.step o cap l = none) (p : Side) : takenBy .stdout (s.side p.other).trace = typed p := by
  have hw : ∀ p, Waits cap s p := by
    intro p
    by_contra hw
    obtain ⟨l, hl⟩ := exists_step ho (h.locals p) hw
    exact hl (hstuck (p, l))
  obtain ⟨hpc, hinput, -⟩ := idle_of_waits hcap h.bounded hw p
  obtain ⟨hpc', -, hqueue⟩ := idle_of_waits hcap h.bounded hw p.other
  have hidle : (s.side p).pc.Idle := by rw [hpc]; decide
  have hidle' : (s.side p.other).pc.Idle := by rw [hpc']; decide
  have hall := h.conserved p
  rwa [shown, owes_of_idle hidle, owes_of_idle hidle', hinput, hqueue, List.flatten_nil, List.append_nil, List.append_nil,
    List.append_nil, List.append_nil] at hall

/-- A side whose block does not fit makes no call. -/
theorem step_blocked (h : (s.side p).pc = .tipcWrite ∧ cap ≤ (s.queue p.other).length) (l : Label) :
    s.step o cap (p, l) = none := by
  apply if_neg
  intro ha
  simp only [Answers, h.1] at ha
  cases l with
  | write res => exact absurd ha.2 (Nat.not_lt_of_le h.2)
  | _ => exact ha

/-- Both blocks are in flight, neither fits, and not all that the client has been typed has come out. -/
def Blocked (cap : ℕ) (input : Side → Octets) (s : Linked) : Prop :=
  (∀ p ∈ [Side.client, .server], (s.side p).pc = .tipcWrite ∧ cap ≤ (s.queue p.other).length) ∧
    takenBy .stdout (s.side .server).trace ≠ input .client

instance (cap : ℕ) (input : Side → Octets) (s : Linked) : Decidable (s.Blocked cap input) :=
  inferInstanceAs (Decidable (_ ∧ _))

theorem Blocked.stuck {input : Side → Octets} (h : s.Blocked cap input) (l : Side × Label) : s.step o cap l = none :=
  step_blocked (h.1 l.1 (by cases l.1 <;> decide)) l.2

/-! ## Runs that block -/

/-- One octet is typed on each side. -/
def oneEach : Side → Octets := fun _ => [1]

/-- Two octets on each side. -/
def twoEach : Side → Octets := fun _ => [1, 2]

/-- Four octets on the client's side and three on the server's. -/
def fourAndThree : Side → Octets
  | .client => [1, 2, 3, 4]
  | .server => [5, 6, 7]

/-- `poll` reports what there is on the two descriptors. -/
def polled (p : Side) (stdin tipc : Bool) : Side × Label := (p, .poll (some ⟨stdin, false, tipc, false, false⟩))

/-- One octet is read. -/
def readOne (p : Side) (c : UInt8) : Side × Label := (p, .read (some [c]))

/-- One octet goes to the socket, and none to `fd_pair[1]`. -/
def sent (p : Side) : List (Side × Label) := [(p, .write (.taken 1)), (p, .write .failed)]

/-- No message fits. -/
def blockedAtOnce : List (Side × Label) :=
  [polled .client true false, readOne .client 1, polled .server true false, readOne .server 1]

/-- Each side has sent one message before the other looks. -/
def blockedByOne : List (Side × Label) :=
  [polled .client true false, polled .server true false, readOne .client 1, readOne .server 1] ++ sent .client ++
    sent .server ++ [polled .client true true, polled .server true true, readOne .client 2, readOne .server 2]

/-- The client sends two messages, and then each side sends one in a round that receives one, or none. -/
def blockedByTwo : List (Side × Label) :=
  [polled .server true false] ++ [polled .client true false, readOne .client 1] ++ sent .client ++
    [polled .client true false, readOne .client 2] ++ sent .client ++ [polled .client true false, readOne .client 3] ++
    [readOne .server 5] ++ sent .server ++ [polled .server true true, readOne .server 6] ++ sent .server ++
    [readOne .server 1, (.server, .write (.taken 1))] ++ sent .client ++ [polled .client true true, readOne .client 4] ++
    [polled .server true true, readOne .server 7]

end Linked

open Linked

/-- With room for two messages or fewer, both sides can block. -/
theorem exists_blocked (hcap : cap < 3) : ∃ (input : Side → Octets) (ls : List (Side × Label)),
    ((Lts.exec (Linked.step (unpaired 66000 (-1)) cap) (.start (unpaired 66000 (-1)) [] input) ls).any
      fun s => decide (s.Blocked cap input)) = true := by
  match cap, hcap with
  | 0, _ => exact ⟨oneEach, blockedAtOnce, by decide⟩
  | 1, _ => exact ⟨twoEach, blockedByOne, by decide⟩
  | 2, _ => exact ⟨fourAndThree, blockedByTwo, by decide⟩

end Pipe
end Tipcutils
