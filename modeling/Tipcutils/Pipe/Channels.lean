import Tipcutils.Lib.History
import Tipcutils.Pipe.Relay

/-!
# `Pipe.Channels` — which descriptors are written

Every block that is written is the last that was read. From `stdin` it goes to the TIPC socket and on to `fd_pair[1]`;
from the socket, and from the other end of the pair, it goes to `stdout`. **`ownChannels_iff`**: these are the only
writes of a run if and only if `fd_pair[1]` was assigned, or happens to be the socket, or was not reached.
-/

namespace Tipcutils
namespace Pipe

variable {o : Opts} {s s' : State}

/-- The writes that `tipc-pipe` may make: a block from `stdin` to the socket, a block from the socket to `stdout`, and
    with `--tee` a block from `stdin` to `fd_pair[1]` and a block from the pair to `stdout`. -/
def Allowed (tee : Bool) (before : List Event) : Event → Prop
  | .read _ _ => True
  | .write .tipc data _ => lastRead before = some (.stdin, data)
  | .write .stdout data _ =>
    lastRead before = some (.tipc, data) ∨ tee = true ∧ lastRead before = some (.pair0, data)
  | .write .pair1 data _ => tee = true ∧ lastRead before = some (.stdin, data)
  | .write _ _ _ => False

/-- All writes are allowed, and what comes from the pair is a copy of what was written to it. -/
structure OwnChannels (o : Opts) (s : State) : Prop where
  writes : ∀ before e, before ++ [e] <+: s.trace → Allowed o.tee before e
  copies : readFrom [.pair0] s.trace <+: takenBy .pair1 s.trace

/-- Where the block in flight has been read from. -/
def Pc.source : Pc → Option Fd
  | .teeWrite => some .pair0
  | .tipcWrite | .pairWrite => some .stdin
  | .stdoutWrite => some .tipc
  | _ => none

theorem source_of_idle {pc : Pc} (h : pc.Idle) : pc.source = none := by
  cases pc <;> revert h <;> decide

/-- The block in flight is the last that was read, and the pair holds what has been written to it and not been
    received. -/
structure Source (o : Opts) (s : State) : Prop where
  tee : s.pc = .teeRecv ∨ s.pc = .teeWrite → o.tee = true
  last : ∀ fd, s.pc.source = some fd → lastRead s.trace = some (fd, s.block)
  pair : takenBy .pair1 s.trace = readFrom [.pair0] s.trace ++ s.pair

theorem not_tee_of_goes {pc : Pc} (h : pc.Goes) : ¬ (pc = .teeRecv ∨ pc = .teeWrite) := by
  cases pc <;> revert h <;> decide

theorem source_start (o : Opts) (buf : Octets) : Source o (start o buf) := by
  have hpc : (start o buf).pc = .socketpair ∨ (start o buf).pc = .poll := by
    show (if o.tee then Pc.socketpair else .poll) = _ ∨ (if o.tee then Pc.socketpair else .poll) = _
    cases o.tee
    · exact .inr rfl
    · exact .inl rfl
  refine ⟨?_, ?_, rfl⟩
  · intro h
    rcases hpc with hpc | hpc <;> rw [hpc] at h <;> rcases h with h | h <;> nomatch h
  · intro fd h
    rcases hpc with hpc | hpc <;> rw [hpc] at h <;> nomatch h

/-- No block is in flight. -/
theorem Source.of_idle (hidle : s.pc.Idle) (htee : s.pc = .teeRecv → o.tee = true)
    (hpair : takenBy .pair1 s.trace = readFrom [.pair0] s.trace ++ s.pair) : Source o s := by
  refine ⟨?_, ?_, hpair⟩
  · intro hpc
    rcases hpc with hpc | hpc
    · exact htee hpc
    · exact absurd hidle (by rw [hpc]; decide)
  · intro fd hfd
    rw [source_of_idle hidle] at hfd
    nomatch hfd

/-- A block from `fd` is in flight. -/
theorem Source.of_source {fd : Fd} (hsource : s.pc.source = some fd) (htee : s.pc = .teeWrite → o.tee = true)
    (hlast : lastRead s.trace = some (fd, s.block))
    (hpair : takenBy .pair1 s.trace = readFrom [.pair0] s.trace ++ s.pair) : Source o s := by
  refine ⟨?_, ?_, hpair⟩
  · intro hpc
    rcases hpc with hpc | hpc
    · rw [hpc] at hsource
      nomatch hsource
    · exact htee hpc
  · intro fd' hfd'
    rw [hsource] at hfd'
    rw [hlast, Option.some.inj hfd']

theorem Source.step {l : Label} (h : Source o s) (hs : step o s l = some s') : Source o s' := by
  cases effect hs with
  | idle hidle hidle' htee htr hpair => exact .of_idle hidle' htee (by rw [htr, hpair, h.pair])
  | read fd data hidle hblock htr hfd =>
    have hlast : lastRead s'.trace = some (fd, s'.block) := by rw [htr, lastRead_concat, hblock]
    -- what comes from the pair leaves it; the other two reads do not touch it
    have hpair' : takenBy .pair1 s'.trace = readFrom [.pair0] s'.trace ++ s'.pair := by
      rw [htr, takenBy_concat_read, readFrom_concat, h.pair]
      rcases hfd with ⟨rfl, -, -, hpair⟩ | ⟨rfl, -, hpair⟩ | ⟨rfl, -, hpair⟩
      · rw [hpair, ← List.append_assoc]
        rfl
      · simp [hpair, Event.readFrom]
      · simp [hpair, Event.readFrom]
    rcases hfd with ⟨rfl, hrecv, hpc, -⟩ | ⟨rfl, hpc, -⟩ | ⟨rfl, hpc, -⟩
    · exact .of_source (by rw [hpc]; rfl) (fun _ => h.tee (.inl hrecv)) hlast hpair'
    · exact .of_source (by rw [hpc]; rfl) (fun hpc' => absurd hpc' (by rw [hpc]; decide)) hlast hpair'
    · exact .of_source (by rw [hpc]; rfl) (fun hpc' => absurd hpc' (by rw [hpc]; decide)) hlast hpair'
  | stdout res hpc hpair htr hnext =>
    refine .of_idle (idle_of_stdout hnext) (fun hpc' => ?_) ?_
    · rcases hnext with hexit | ⟨hgoes, -⟩
      · exact absurd hpc' (by rw [hexit]; decide)
      · exact absurd (.inl hpc') (not_tee_of_goes hgoes)
    · rw [htr, takenBy_concat_none _ (.inl (by decide)), readFrom_concat_write, hpair, h.pair]
  | tipc res hpc hblock hpair htr hnext =>
    have hlast : lastRead s'.trace = some (.stdin, s'.block) := by
      rw [htr, lastRead_concat, hblock, h.last .stdin (by rw [hpc]; rfl)]
    have hpair' : takenBy .pair1 s'.trace = readFrom [.pair0] s'.trace ++ s'.pair := by
      rw [htr, takenBy_concat_none _ (.inl (by decide)), readFrom_concat_write, hpair, h.pair]
    rcases hnext with ⟨-, hnext⟩ | ⟨-, hnext⟩
    · exact .of_source (by rw [hnext]; rfl) (fun hpc' => absurd hpc' (by rw [hnext]; decide)) hlast hpair'
    · exact .of_source (by rw [hnext]; rfl) (fun hpc' => absurd hpc' (by rw [hnext]; decide)) hlast hpair'
  | pair res hpc hpair htr hnext =>
    have hpair' : takenBy .pair1 s'.trace = readFrom [.pair0] s'.trace ++ s'.pair := by
      rw [htr, takenBy_concat, readFrom_concat_write, h.pair, hpair]
      show _ ++ (if o.teeFd = .pair1 then s.block.take res.count else []) = _
      split
      · rw [List.append_assoc]
      · rw [List.append_nil]
    rcases hnext with ⟨hnext, hblock⟩ | hgoes
    · have hlast : lastRead s'.trace = some (.stdin, s'.block) := by
        rw [htr, lastRead_concat, hblock, h.last .stdin (by rw [hpc]; rfl)]
      exact .of_source (by rw [hnext]; rfl) (fun hpc' => absurd hpc' (by rw [hnext]; decide)) hlast hpair'
    · exact .of_idle hgoes.idle.1 (fun hpc' => absurd (.inl hpc') (not_tee_of_goes hgoes)) hpair'

theorem source_of_run {buf : Octets} {tr : List (State × Label × State)}
    (h : Lts.Run (step o) (start o buf) tr s) : Source o s :=
  h.reach.inv (source_start o buf) fun _ _ _ hI hs => hI.step hs

/-! ## Writes -/

/-- A step adds to the trace. -/
theorem trace_grows {l : Label} (hs : step o s l = some s') : s.trace <+: s'.trace := by
  cases effect hs with
  | idle _ _ _ htr _ => simp only [htr, List.prefix_refl]
  | read _ _ _ _ htr _ => exact ⟨_, htr.symm⟩
  | stdout _ _ _ htr _ => exact ⟨_, htr.symm⟩
  | tipc _ _ _ _ htr _ => exact ⟨_, htr.symm⟩
  | pair _ _ _ htr _ => exact ⟨_, htr.symm⟩

/-- All writes of a trace are allowed. -/
def OwnWrites (o : Opts) (tr : List Event) : Prop := ∀ before e, before ++ [e] <+: tr → Allowed o.tee before e

theorem OwnWrites.concat {tr : List Event} {e : Event} (h : OwnWrites o tr) (he : Allowed o.tee tr e) :
    OwnWrites o (tr ++ [e]) :=
  History.Right.concat h he

/-- `fd_pair[1]` is not written to, or is assigned, or is the socket. -/
def PairOk (o : Opts) (t : State × Label × State) : Prop := o.tee = true ∨ o.fdPair1 = .tipc ∨ t.1.pc ≠ .pairWrite

theorem allowed_stdout (hS : Source o s) (hpc : s.pc = .teeWrite ∨ s.pc = .stdoutWrite) (n : ℕ) :
    Allowed o.tee s.trace (.write .stdout s.block n) := by
  rcases hpc with hpc | hpc
  · exact .inr ⟨hS.tee (.inr hpc), hS.last .pair0 (by rw [hpc]; rfl)⟩
  · exact .inl (hS.last .tipc (by rw [hpc]; rfl))

/-- A block from `stdin` may go to `fd_pair[1]` exactly if that is assigned, or is the socket. -/
theorem allowed_pair_iff (hS : Source o s) (hpc : s.pc = .pairWrite) (n : ℕ) :
    Allowed o.tee s.trace (.write o.teeFd s.block n) ↔ o.tee = true ∨ o.fdPair1 = .tipc := by
  have hlast := hS.last .stdin (by rw [hpc]; rfl)
  -- without `--tee` this is whatever the unassigned descriptor holds
  rw [Opts.teeFd]
  cases htee : o.tee with
  | true => exact ⟨fun _ => .inl rfl, fun _ => ⟨rfl, hlast⟩⟩
  | false => cases hfd : o.fdPair1 <;> simp [Allowed, hlast]

theorem OwnWrites.step {l : Label} (h : OwnWrites o s.trace) (hS : Source o s) (hs : step o s l = some s')
    (hok : PairOk o (s, l, s')) : OwnWrites o s'.trace := by
  cases effect hs with
  | idle _ _ _ htr _ =>
    rw [htr]
    exact h
  | read _ _ _ _ htr _ =>
    rw [htr]
    exact h.concat trivial
  | stdout res hpc _ htr _ =>
    rw [htr]
    exact h.concat (allowed_stdout hS hpc _)
  | tipc res hpc _ _ htr _ =>
    rw [htr]
    exact h.concat (hS.last .stdin (by rw [hpc]; rfl))
  | pair res hpc _ htr _ =>
    rw [htr]
    apply h.concat
    rw [allowed_pair_iff hS hpc]
    rcases hok with htee | hfd | hne
    · exact .inl htee
    · exact .inr hfd
    · exact absurd hpc hne

/-- A write through `fd_pair[1]` stays in the trace. -/
theorem pairOk_of_ownWrites {l : Label} (hS : Source o s) (hs : step o s l = some s') (hw : OwnWrites o s'.trace) :
    PairOk o (s, l, s') := by
  by_cases hpc : s.pc = .pairWrite
  · have htr : ∃ n, s'.trace = s.trace ++ [.write o.teeFd s.block n] := by
      cases effect hs with
      | idle hidle _ _ _ _ => exact absurd hidle (by rw [hpc]; decide)
      | read _ _ hidle _ _ _ => exact absurd hidle (by rw [hpc]; decide)
      | stdout _ hpc' _ _ _ => rcases hpc' with hpc' | hpc' <;> rw [hpc] at hpc' <;> nomatch hpc'
      | tipc _ hpc' _ _ _ _ => rw [hpc] at hpc'; nomatch hpc'
      | pair res _ _ htr _ => exact ⟨_, htr⟩
    obtain ⟨n, htr⟩ := htr
    rw [htr] at hw
    -- the write is the last event of the trace
    rcases (allowed_pair_iff hS hpc n).mp (History.Right.last hw) with htee | hfd
    · exact .inl htee
    · exact .inr (.inl hfd)
  · exact .inr (.inr hpc)

theorem ownWrites_iff (buf : Octets) {tr : List (State × Label × State)} (h : Lts.Run (step o) (start o buf) tr s) :
    OwnWrites o s.trace ↔ ∀ t ∈ tr, PairOk o t := by
  apply h.iff_forall (P := fun s => OwnWrites o s.trace) (I := fun s => Source o s ∧ OwnWrites o s.trace)
  · exact ⟨source_start o buf, History.right_nil⟩
  · intro s hI
    exact hI.2
  · intro s l s' hs hw
    exact History.Right.earlier hw (trace_grows hs)
  · intro s l s' hI hs hw
    exact pairOk_of_ownWrites hI.1 hs hw
  · intro s l s' hI hs hok
    exact ⟨hI.1.step hs, hI.2.step hI.1 hs hok⟩

/-- **Which descriptors are written.** A run writes only to its own channels if and only if it does not write through an
    unassigned `fd_pair[1]` that is anything else than the socket. -/
theorem ownChannels_iff (buf : Octets) {tr : List (State × Label × State)}
    (h : Lts.Run (step o) (start o buf) tr s) : OwnChannels o s ↔ ∀ t ∈ tr, PairOk o t := by
  rw [← ownWrites_iff buf h]
  constructor
  · intro ho
    exact ho.writes
  · intro hwrites
    refine ⟨hwrites, ?_⟩
    rw [(source_of_run h).pair]
    exact List.prefix_append _ _

/-! ## Two runs -/

def teeOpts : Opts := ⟨true, 66000, .other (-1)⟩

/-- A block from `stdin`, of which one octet has been copied. -/
def teeBlock : List Label :=
  [.socketpair true, .poll (some stdinReady), .read (some [1, 2]), .write (.taken 2), .write (.taken 2),
    .poll (some ⟨false, false, false, false, true⟩), .read (some [1]), .write (.taken 1)]

theorem teeBlock_exec : (Lts.exec (step teeOpts) (start teeOpts []) teeBlock).isSome = true := by
  decide

theorem ownChannels_iff_tee : OwnChannels teeOpts (Lts.final _ _ teeBlock teeBlock_exec) := by
  have hrun : Lts.Run (step teeOpts) (start teeOpts []) (Lts.transitions (step teeOpts) (start teeOpts []) teeBlock)
      (Lts.final _ _ teeBlock teeBlock_exec) :=
    Lts.run_of_exec (Option.some_get teeBlock_exec).symm
  exact (ownChannels_iff [] hrun).mpr fun t _ => .inl rfl

/-- Without `--tee`; `fd_pair[1]` happens to hold 1. -/
def strayOpts : Opts := ⟨false, 66000, .stdout⟩

def strayBlock : List Label :=
  [.poll (some stdinReady), .read (some [1, 2]), .write (.taken 2), .write (.taken 2)]

theorem strayBlock_exec : (Lts.exec (step strayOpts) (start strayOpts []) strayBlock).isSome = true := by
  decide

/-- Without `--tee` a block from `stdin` also goes to whatever `fd_pair[1]` holds. -/
theorem ownChannels_broken :
    ¬ ∀ (o : Opts) (buf : Octets) (s : State), o.tee = false → Lts.Reach (step o) (start o buf) s →
      OwnChannels o s := by
  intro h
  have hown := h strayOpts [] _ rfl (Lts.reach_final strayBlock_exec)
  have hallowed := hown.writes [.read .stdin [1, 2], .write .tipc [1, 2] 2] (.write .stdout [1, 2] 2) (by decide)
  rcases hallowed with hlast | ⟨htee, -⟩
  · exact absurd hlast (by decide)
  · nomatch htee

end Pipe
end Tipcutils
