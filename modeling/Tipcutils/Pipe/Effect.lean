import Mathlib.Data.List.Basic
import Tipcutils.Pipe.PipeStart

/-!
# `Pipe.Effect` — what a step of the loop does

A block is in flight from the call that has read it to the call that writes it. **`effect`** says once what each step
does to the trace, to the block in flight and to the pair; everything else about runs is derived from it.
-/

namespace Tipcutils
namespace Pipe

/-- No block is in flight. -/
def Pc.Idle (pc : Pc) : Prop := pc ∉ [Pc.teeWrite, .tipcWrite, .pairWrite, .stdoutWrite]

instance (pc : Pc) : Decidable pc.Idle := inferInstanceAs (Decidable (pc ∉ _))

theorem idle_returned : Pc.Idle .returned := by decide

/-- The block that the next call writes. -/
def State.block (s : State) : Octets :=
  match s.pc with
  | .teeWrite => s.buf.take s.len.toNat
  | .tipcWrite | .pairWrite | .stdoutWrite => s.buf.take s.dataInLen.toNat
  | _ => []

/-- Where a round goes on after a block has been written. -/
def Pc.Goes (pc : Pc) : Prop := pc ∈ [Pc.stdinRead, .tipcRecv, .poll, .returned]

instance (pc : Pc) : Decidable pc.Goes := inferInstanceAs (Decidable (pc ∈ _))

/-- What a step does. -/
inductive Effect (o : Opts) (s s' : State) : Label → Prop where
  /-- a call that neither reads nor writes, or a read that fails -/
  | idle {l : Label} : s.pc.Idle → s'.pc.Idle → (s'.pc = .teeRecv → o.tee = true) → s'.trace = s.trace →
      s'.pair = s.pair → Effect o s s' l
  | read (fd : Fd) (data : Octets) : s.pc.Idle → s'.block = data → s'.trace = s.trace ++ [.read fd data] →
      (fd = .pair0 ∧ s.pc = .teeRecv ∧ s'.pc = .teeWrite ∧ s.pair = data ++ s'.pair ∨
        fd = .stdin ∧ s'.pc = .tipcWrite ∧ s'.pair = s.pair ∨
        fd = .tipc ∧ s'.pc = .stdoutWrite ∧ s'.pair = s.pair) → Effect o s s' (.read (some data))
  /-- a block for `stdout`; the program ends if it is not taken whole -/
  | stdout (res : WriteRes) : s.pc = .teeWrite ∨ s.pc = .stdoutWrite → s'.pair = s.pair →
      s'.trace = s.trace ++ [.write .stdout s.block res.count] →
      (s'.pc = .exited ∨ s'.pc.Goes ∧ s.block.length ≤ res.count) → Effect o s s' (.write res)
  | tipc (res : WriteRes) : s.pc = .tipcWrite → s'.block = s.block → s'.pair = s.pair →
      s'.trace = s.trace ++ [.write .tipc s.block res.count] →
      (res = .again ∧ s'.pc = .tipcWrite ∨ res ≠ .again ∧ s'.pc = .pairWrite) → Effect o s s' (.write res)
  | pair (res : WriteRes) : s.pc = .pairWrite →
      s'.pair = (if o.teeFd = .pair1 then s.pair ++ s.block.take res.count else s.pair) →
      s'.trace = s.trace ++ [.write o.teeFd s.block res.count] →
      (s'.pc = .pairWrite ∧ s'.block = s.block ∨ s'.pc.Goes) → Effect o s s' (.write res)

/-- What follows a call only moves the program counter. -/
theorem roundEnd_eq (s : State) : ∃ pc : Pc, pc.Goes ∧ s.roundEnd = { s with pc := pc } := by
  unfold State.roundEnd
  split
  · exact ⟨.returned, by decide, rfl⟩
  · exact ⟨.poll, by decide, rfl⟩

theorem afterStdin_eq (s : State) : ∃ pc : Pc, pc.Goes ∧ s.afterStdin = { s with pc := pc } := by
  unfold State.afterStdin
  split
  · exact ⟨.tipcRecv, by decide, rfl⟩
  · exact roundEnd_eq s

theorem afterTee_eq (s : State) : ∃ pc : Pc, pc.Goes ∧ s.afterTee = { s with pc := pc } := by
  unfold State.afterTee
  split
  · exact ⟨.stdinRead, by decide, rfl⟩
  · exact afterStdin_eq s

theorem Pc.Goes.idle {pc : Pc} (h : pc.Goes) : pc.Idle ∧ pc ≠ .teeRecv := by
  cases pc <;> revert h <;> decide

theorem afterPoll_eq (o : Opts) (s : State) :
    ∃ pc : Pc, pc.Idle ∧ (pc = .teeRecv → o.tee = true) ∧ s.afterPoll o = { s with pc := pc } := by
  unfold State.afterPoll
  split
  next h => exact ⟨.teeRecv, by decide, fun _ => h.1, rfl⟩
  · obtain ⟨pc, hpc, heq⟩ := afterTee_eq s
    exact ⟨pc, hpc.idle.1, fun h => absurd h hpc.idle.2, heq⟩

/-- The block that has just been read is at the start of the buffer. -/
theorem take_fill {o : Opts} {data : Octets} (h : data.length ≤ o.bufSize) (s : State) (fd : Fd) :
    (s.fill o fd data).buf.take data.length = data := by
  rw [State.fill, overlay_of_le h, List.take_left]

variable {o : Opts} {s s' : State}

theorem effect_poll {revents : Option Revents} (h : step o s (.poll revents) = some s') :
    Effect o s s' (.poll revents) := by
  simp only [step] at h
  split at h
  next r hpc =>
    obtain rfl := Option.some.inj h
    obtain ⟨pc, hidle, htee, heq⟩ := afterPoll_eq o { s with revents := r, dataInLen := 0 }
    rw [heq]
    exact .idle (by rw [hpc]; decide) hidle htee rfl rfl
  next hpc =>
    obtain rfl := Option.some.inj h
    exact .idle (by rw [hpc]; decide) idle_returned nofun rfl rfl
  · nomatch h

theorem effect_read {data : Option Octets} (h : step o s (.read data) = some s') :
    Effect o s s' (.read data) := by
  cases data with
  | none =>
    simp only [step] at h
    split at h
    next hpc =>
      obtain rfl := Option.some.inj h
      exact .idle (by rw [hpc]; decide) idle_returned nofun rfl rfl
    next hpc =>
      obtain rfl := Option.some.inj h
      exact .idle (by rw [hpc]; decide) idle_returned nofun rfl rfl
    next hpc =>
      obtain rfl := Option.some.inj h
      exact .idle (by rw [hpc]; decide) idle_returned nofun rfl rfl
    · nomatch h
  | some data =>
    obtain ⟨hlen, h⟩ := Option.ite_none_right_eq_some.mp h
    split at h
    next hpc =>
      obtain ⟨hpair, h⟩ := Option.ite_none_right_eq_some.mp h
      obtain rfl := Option.some.inj h
      -- `recv` from the pair yields the start of what it holds
      obtain ⟨rest, hrest⟩ := hpair
      refine .read .pair0 data (by rw [hpc]; decide) (take_fill hlen s .pair0) rfl (.inl ⟨rfl, hpc, rfl, ?_⟩)
      show s.pair = data ++ s.pair.drop data.length
      rw [← hrest, List.drop_left]
    next hpc =>
      obtain rfl := Option.some.inj h
      exact .read .stdin data (by rw [hpc]; decide) (take_fill hlen s .stdin) rfl (.inr (.inl ⟨rfl, rfl, rfl⟩))
    next hpc =>
      obtain rfl := Option.some.inj h
      exact .read .tipc data (by rw [hpc]; decide) (take_fill hlen s .tipc) rfl (.inr (.inr ⟨rfl, rfl, rfl⟩))
    · nomatch h

/-- A write that returns the length of its block has taken it. -/
theorem length_take_le_count {n : ℤ} {res : WriteRes} (buf : Octets) (h : res.val = n) :
    (buf.take n.toNat).length ≤ res.count := by
  rw [List.length_take, ← h]
  cases res with
  | taken k => exact Nat.min_le_left _ _
  | again => exact Nat.min_le_left _ _
  | failed => exact Nat.min_le_left _ _

theorem effect_write {res : WriteRes} (h : step o s (.write res) = some s') : Effect o s s' (.write res) := by
  simp only [step] at h
  split at h
  next hpc =>
    obtain ⟨-, h⟩ := Option.ite_none_right_eq_some.mp h
    obtain rfl := Option.some.inj h
    have hblock : s.block = s.buf.take s.len.toNat := by rw [State.block, hpc]
    split
    next hval =>
      -- the copy has been written whole, and the round goes on with `stdin`
      obtain ⟨pc, hgoes, heq⟩ := afterTee_eq (s.put .stdout s.len res)
      rw [heq]
      refine .stdout res (.inl hpc) rfl (by rw [hblock]; rfl) (.inr ⟨hgoes, ?_⟩)
      rw [hblock]
      exact length_take_le_count s.buf hval
    · exact .stdout res (.inl hpc) rfl (by rw [hblock]; rfl) (.inl rfl)
  next hpc =>
    obtain ⟨-, h⟩ := Option.ite_none_right_eq_some.mp h
    obtain rfl := Option.some.inj h
    have hblock : s.block = s.buf.take s.dataInLen.toNat := by rw [State.block, hpc]
    split
    next hres =>
      exact .tipc res hpc (by simp only [State.block, State.put, hpc]) rfl (by rw [hblock]; rfl) (.inl ⟨hres, hpc⟩)
    next hres => exact .tipc res hpc (by rw [hblock]; rfl) rfl (by rw [hblock]; rfl) (.inr ⟨hres, rfl⟩)
  next hpc =>
    obtain ⟨-, h⟩ := Option.ite_none_right_eq_some.mp h
    obtain rfl := Option.some.inj h
    have hblock : s.block = s.buf.take s.dataInLen.toNat := by rw [State.block, hpc]
    split
    · -- `EAGAIN`: the same block is written again
      exact .pair res hpc (by rw [hblock]; rfl) (by rw [hblock]; rfl)
        (.inl ⟨hpc, by simp only [State.block, State.put, hpc]⟩)
    · obtain ⟨pc, hgoes, heq⟩ := afterStdin_eq { s.put o.teeFd s.dataInLen res with len := res.val }
      rw [heq]
      exact .pair res hpc (by rw [hblock]; rfl) (by rw [hblock]; rfl) (.inr hgoes)
  next hpc =>
    obtain ⟨-, h⟩ := Option.ite_none_right_eq_some.mp h
    obtain rfl := Option.some.inj h
    have hblock : s.block = s.buf.take s.dataInLen.toNat := by rw [State.block, hpc]
    split
    next hval =>
      obtain ⟨pc, hgoes, heq⟩ := roundEnd_eq (s.put .stdout s.dataInLen res)
      rw [heq]
      refine .stdout res (.inr hpc) rfl (by rw [hblock]; rfl) (.inr ⟨hgoes, ?_⟩)
      rw [hblock]
      exact length_take_le_count s.buf hval
    · exact .stdout res (.inr hpc) rfl (by rw [hblock]; rfl) (.inl rfl)
  · nomatch h

theorem effect {l : Label} (h : step o s l = some s') : Effect o s s' l := by
  cases l with
  | socketpair ok =>
    simp only [step] at h
    split at h
    next hpc =>
      obtain rfl := Option.some.inj h
      refine .idle (by rw [hpc]; decide) ?_ ?_ rfl rfl
      · show Pc.Idle (if ok then .poll else .exited)
        cases ok <;> decide
      · cases ok <;> nofun
    · nomatch h
  | poll revents => exact effect_poll h
  | read data => exact effect_read h
  | write res => exact effect_write h

theorem idle_of_stdout {p : Prop} (h : s.pc = .exited ∨ s.pc.Goes ∧ p) : s.pc.Idle := by
  rcases h with hexit | ⟨hgoes, -⟩
  · rw [hexit]
    decide
  · exact hgoes.idle.1

theorem pc_ne_exited {l : Label} (h : step o s l = some s') : s.pc ≠ .exited := by
  intro hpc
  cases l with
  | socketpair ok => simp [step, hpc] at h
  | poll revents => simp [step, hpc] at h
  | read data => cases data <;> simp [step, hpc] at h
  | write res => simp [step, hpc] at h

end Pipe
end Tipcutils
