import Tipcutils.Pipe.Effect

/-!
# `Pipe.Relay` — what the loop relays

A block for the TIPC socket is written once, however much of it is taken, and what comes of the write is not looked at;
so is a block for `fd_pair[1]`, which is unassigned without `--tee`. **`relay`**: in a run in which the socket
takes every block whole, and nothing reaches it or `stdout` through an unassigned `fd_pair[1]`, every round relays what
it has read; and what is lost, or comes to `stdout` from `stdin`, is never made up for, except where `fd_pair[1]` is the
socket itself.
-/

namespace Tipcutils
namespace Pipe

variable {o : Opts} {s s' : State}

/-- Between two rounds of the loop, or behind it. -/
def State.BetweenRounds (s : State) : Prop := s.pc = .poll ∨ s.pc = .returned

/-- What has been read from `stdin` is what the TIPC socket has taken, and what has come from the socket (and from the
    socket pair) is what `stdout` has taken. -/
structure Relayed (s : State) : Prop where
  toSocket : takenBy .tipc s.trace = readFrom [.stdin] s.trace
  toStdout : takenBy .stdout s.trace = readFrom [.tipc, .pair0] s.trace

/-- The block in flight, if the next call writes it to `fd`. -/
def State.owes (s : State) (fd : Fd) : Octets :=
  match s.pc, fd with
  | .teeWrite, .stdout | .stdoutWrite, .stdout | .tipcWrite, .tipc => s.block
  | _, _ => []

/-- With the block in flight, everything is relayed. -/
structure Carries (s : State) : Prop where
  toSocket : takenBy .tipc s.trace ++ s.owes .tipc = readFrom [.stdin] s.trace
  toStdout : s.pc ≠ .exited → takenBy .stdout s.trace ++ s.owes .stdout = readFrom [.tipc, .pair0] s.trace

/-- The TIPC socket takes the block whole (unless the write is made again), and an unassigned `fd_pair[1]` that happens
    to be the socket or `stdout` takes nothing. -/
def Lossless (o : Opts) (t : State × Label × State) : Prop :=
  match t.2.1 with
  | .write res =>
    (t.1.pc = .tipcWrite → res = .again ∨ t.1.block.length ≤ res.count) ∧
      (t.1.pc = .pairWrite → o.teeFd ≠ .tipc ∧ o.teeFd ≠ .stdout ∨ res.count = 0)
  | _ => True

theorem owes_of_idle (h : s.pc.Idle) (fd : Fd) : s.owes fd = [] := by
  unfold State.owes
  split
  next hpc => exact absurd h (by rw [hpc]; decide)
  next hpc => exact absurd h (by rw [hpc]; decide)
  next hpc => exact absurd h (by rw [hpc]; decide)
  · rfl

theorem idle_start (o : Opts) (buf : Octets) : (start o buf).pc.Idle := by
  show Pc.Idle (if o.tee then .socketpair else .poll)
  cases o.tee <;> decide

theorem carries_start (o : Opts) (buf : Octets) : Carries (start o buf) := by
  have hidle := idle_start o buf
  refine ⟨?_, ?_⟩
  · rw [owes_of_idle hidle]
    rfl
  · intro _
    rw [owes_of_idle hidle]
    rfl

theorem Carries.read (h : Carries s) (hne : s.pc ≠ .exited) (hidle : s.pc.Idle) {fd : Fd} {data : Octets}
    (hblock : s'.block = data) (htr : s'.trace = s.trace ++ [.read fd data])
    (hfd : fd = .pair0 ∧ s'.pc = .teeWrite ∨ fd = .stdin ∧ s'.pc = .tipcWrite ∨ fd = .tipc ∧ s'.pc = .stdoutWrite) :
    Carries s' := by
  have hsock := h.toSocket
  have hout := h.toStdout hne
  rw [owes_of_idle hidle, List.append_nil] at hsock hout
  rcases hfd with ⟨rfl, hpc⟩ | ⟨rfl, hpc⟩ | ⟨rfl, hpc⟩
  all_goals
    refine ⟨?_, ?_⟩
    · simp [htr, takenBy_concat, readFrom_concat, Event.readFrom, Event.takenBy, State.owes, hpc, hblock, hsock]
    · intro _
      simp [htr, takenBy_concat, readFrom_concat, Event.readFrom, Event.takenBy, State.owes, hpc, hblock, hout]

theorem Carries.stdout (h : Carries s) {res : WriteRes} (hpc : s.pc = .teeWrite ∨ s.pc = .stdoutWrite)
    (htr : s'.trace = s.trace ++ [.write .stdout s.block res.count])
    (hnext : s'.pc = .exited ∨ s'.pc.Goes ∧ s.block.length ≤ res.count) : Carries s' := by
  have hsock := h.toSocket
  have hnone : s.owes .tipc = [] := by rcases hpc with hpc | hpc <;> simp only [State.owes, hpc]
  have howes : s.owes .stdout = s.block := by rcases hpc with hpc | hpc <;> simp only [State.owes, hpc]
  have hout := h.toStdout (by rcases hpc with hpc | hpc <;> rw [hpc] <;> decide)
  rw [hnone, List.append_nil] at hsock
  rw [howes] at hout
  have hidle : s'.pc.Idle := idle_of_stdout hnext
  refine ⟨?_, ?_⟩
  · rw [owes_of_idle hidle, htr, takenBy_concat_none _ (.inl (by decide)), readFrom_concat_write, List.append_nil, hsock]
  · intro hne
    -- the program goes on only if `stdout` has taken the whole block
    obtain ⟨-, hwhole⟩ := hnext.resolve_left hne
    rw [owes_of_idle hidle, htr, takenBy_concat_whole _ _ hwhole, readFrom_concat_write, List.append_nil, hout]

theorem Carries.tipc (h : Carries s) {res : WriteRes} (hpc : s.pc = .tipcWrite) (hblock : s'.block = s.block)
    (htr : s'.trace = s.trace ++ [.write .tipc s.block res.count])
    (hnext : res = .again ∧ s'.pc = .tipcWrite ∨ res ≠ .again ∧ s'.pc = .pairWrite)
    (hl : res = .again ∨ s.block.length ≤ res.count) : Carries s' := by
  have hsock := h.toSocket
  have hout := h.toStdout (by rw [hpc]; decide)
  have howes : s.owes .tipc = s.block := by simp only [State.owes, hpc]
  have hnone : s.owes .stdout = [] := by simp only [State.owes, hpc]
  rw [howes] at hsock
  rw [hnone, List.append_nil] at hout
  have hnone' : s'.owes .stdout = [] := by
    rcases hnext with ⟨-, hpc'⟩ | ⟨-, hpc'⟩ <;> simp only [State.owes, hpc']
  refine ⟨?_, ?_⟩
  · rw [htr, readFrom_concat_write]
    rcases hnext with ⟨hagain, hpc'⟩ | ⟨hne, hpc'⟩
    · -- nothing is taken, and the block stays
      have howes' : s'.owes .tipc = s.block := by simp only [State.owes, hpc', hblock]
      rw [takenBy_concat_none _ (.inr (by rw [hagain]; rfl)), howes', hsock]
    · -- the block has been taken whole, and nothing is in flight
      have howes' : s'.owes .tipc = [] := by simp only [State.owes, hpc']
      rw [takenBy_concat_whole _ _ (hl.resolve_left hne), howes', List.append_nil, hsock]
  · intro _
    rw [hnone', htr, takenBy_concat_none _ (.inl (by decide)), readFrom_concat_write, List.append_nil, hout]

/-- A block for `fd_pair[1]` is owed to nobody. -/
theorem owes_of_pairWrite (h : s.pc = .pairWrite) (fd : Fd) : s.owes fd = [] := by simp only [State.owes, h]

theorem owes_after_pair (h : s.pc = .pairWrite ∨ s.pc.Goes) (fd : Fd) : s.owes fd = [] := by
  rcases h with hpc | hgoes
  · exact owes_of_pairWrite hpc fd
  · exact owes_of_idle hgoes.idle.1 fd

theorem Carries.pair (h : Carries s) {res : WriteRes} (hpc : s.pc = .pairWrite)
    (htr : s'.trace = s.trace ++ [.write o.teeFd s.block res.count]) (hnext : s'.pc = .pairWrite ∨ s'.pc.Goes)
    (hl : o.teeFd ≠ .tipc ∧ o.teeFd ≠ .stdout ∨ res.count = 0) : Carries s' := by
  have hsock := h.toSocket
  have hout := h.toStdout (by rw [hpc]; decide)
  rw [owes_of_pairWrite hpc, List.append_nil] at hsock hout
  refine ⟨?_, ?_⟩
  · rw [owes_after_pair hnext, htr, takenBy_concat_none _ (hl.imp And.left id), readFrom_concat_write, List.append_nil,
      hsock]
  · intro _
    rw [owes_after_pair hnext, htr, takenBy_concat_none _ (hl.imp And.right id), readFrom_concat_write, List.append_nil,
      hout]

theorem Carries.step {l : Label} (h : Carries s) (hs : step o s l = some s') (hl : Lossless o (s, l, s')) :
    Carries s' := by
  cases effect hs with
  | idle hidle hidle' _ htr _ =>
    refine ⟨?_, ?_⟩
    · rw [htr, owes_of_idle hidle', ← h.toSocket, owes_of_idle hidle]
    · intro _
      rw [htr, owes_of_idle hidle', ← h.toStdout (pc_ne_exited hs), owes_of_idle hidle]
  | read fd data hidle hblock htr hfd =>
    refine h.read (pc_ne_exited hs) hidle hblock htr ?_
    rcases hfd with ⟨hfd, -, hpc, -⟩ | ⟨hfd, hpc, -⟩ | ⟨hfd, hpc, -⟩
    · exact .inl ⟨hfd, hpc⟩
    · exact .inr (.inl ⟨hfd, hpc⟩)
    · exact .inr (.inr ⟨hfd, hpc⟩)
  | stdout res hpc _ htr hnext => exact h.stdout hpc htr hnext
  | tipc res hpc hblock _ htr hnext => exact h.tipc hpc hblock htr hnext (hl.1 hpc)
  | pair res hpc _ htr hnext => exact h.pair hpc htr (hnext.imp And.left id) (hl.2 hpc)

/-! ## Losses -/

theorem Carries.relayed (h : Carries s) (hs : s.BetweenRounds) : Relayed s := by
  have hidle : s.pc.Idle := by rcases hs with hpc | hpc <;> rw [hpc] <;> decide
  have hne : s.pc ≠ .exited := by rcases hs with hpc | hpc <;> rw [hpc] <;> decide
  have hsock := h.toSocket
  have hout := h.toStdout hne
  rw [owes_of_idle hidle, List.append_nil] at hsock hout
  exact ⟨hsock, hout⟩

/-- What the socket has taken, with the block in flight. -/
def State.sent (s : State) : ℕ := (takenBy .tipc s.trace).length + (s.owes .tipc).length

/-- What has been read from `stdin`. -/
def State.got (s : State) : ℕ := (readFrom [.stdin] s.trace).length

/-- What `stdout` has taken, with the block in flight. -/
def State.printed (s : State) : ℕ := (takenBy .stdout s.trace).length + (s.owes .stdout).length

/-- What has come from the socket and from the pair. -/
def State.came (s : State) : ℕ := (readFrom [.tipc, .pair0] s.trace).length

/-- The socket takes the block whole, or the write is made again. -/
def Whole (t : State × Label × State) : Prop :=
  ∀ res, t.2.1 = .write res → t.1.pc = .tipcWrite → res = .again ∨ t.1.block.length ≤ res.count

/-- Nothing of a block from `stdin` gets to `stdout`. -/
def Silent (o : Opts) (t : State × Label × State) : Prop :=
  ∀ res, t.2.1 = .write res → t.1.pc = .pairWrite → o.teeFd ≠ .stdout ∨ res.count = 0

theorem Whole.lossless {t : State × Label × State} (ho : o.teeFd ≠ .tipc) (h : Whole t) (hq : Silent o t) :
    Lossless o t := by
  obtain ⟨s, l, s'⟩ := t
  cases l with
  | write res => exact ⟨h res rfl, fun hpc => (hq res rfl hpc).imp (fun hne => ⟨ho, hne⟩) id⟩
  | _ => trivial

/-- The socket is never ahead of `stdin`, and a step after which it is not further behind has taken its block whole. -/
theorem sent_step {l : Label} (ho : o.teeFd ≠ .tipc) (hs : step o s l = some s') :
    s'.sent + s.got ≤ s.sent + s'.got ∧ (s'.sent + s.got = s.sent + s'.got → Whole (s, l, s')) := by
  have hvacuous : s.pc ≠ .tipcWrite → Whole (s, l, s') := fun hpc _ _ h => absurd h hpc
  cases effect hs with
  | idle hidle hidle' _ htr _ =>
    refine ⟨?_, fun _ => hvacuous fun h => absurd hidle (by rw [h]; decide)⟩
    apply Nat.le_of_eq
    rw [State.sent, State.sent, State.got, State.got, htr, owes_of_idle hidle', owes_of_idle hidle]
  | read fd data hidle hblock htr hfd =>
    refine ⟨?_, fun _ => hvacuous fun h => absurd hidle (by rw [h]; decide)⟩
    rw [State.sent, State.sent, State.got, State.got, htr, takenBy_concat_read, readFrom_concat, owes_of_idle hidle,
      List.length_append]
    rcases hfd with ⟨rfl, -, hpc, -⟩ | ⟨rfl, hpc, -⟩ | ⟨rfl, hpc, -⟩
    all_goals simp [State.owes, hpc, Event.readFrom, hblock, Nat.add_comm, Nat.add_left_comm, Nat.add_assoc]
  | stdout res hpc _ htr hnext =>
    have hidle : s'.pc.Idle := idle_of_stdout hnext
    have hnone : s.owes .tipc = [] := by rcases hpc with hpc | hpc <;> simp only [State.owes, hpc]
    refine ⟨?_, fun _ => hvacuous fun h => ?_⟩
    · apply Nat.le_of_eq
      rw [State.sent, State.sent, State.got, State.got, htr, takenBy_concat_none _ (.inl (by decide)),
        readFrom_concat_write, owes_of_idle hidle, hnone]
    · rcases hpc with hpc | hpc <;> rw [hpc] at h <;> nomatch h
  | tipc res hpc hblock _ htr hnext =>
    have howes : s.owes .tipc = s.block := by simp only [State.owes, hpc]
    have htaken : (Event.write .tipc s.block res.count).takenBy .tipc = s.block.take res.count := rfl
    rw [State.sent, State.sent, State.got, State.got, htr, takenBy_concat, readFrom_concat_write, howes, htaken,
      List.length_append, List.length_take]
    rcases hnext with ⟨hagain, hpc'⟩ | ⟨-, hpc'⟩
    · have howes' : s'.owes .tipc = s.block := by simp only [State.owes, hpc', hblock]
      have hcount : res.count = 0 := by rw [hagain]; rfl
      rw [howes', hcount]
      refine ⟨by omega, fun _ res' hres' _ => .inl ?_⟩
      rw [← Label.write.inj hres', hagain]
    · -- the write is over, and what has not been taken is no longer in flight
      rw [owes_of_pairWrite hpc', List.length_nil]
      refine ⟨by omega, fun heq res' hres' _ => .inr ?_⟩
      rw [← Label.write.inj hres']
      show s.block.length ≤ res.count
      omega
  | pair res hpc _ htr hnext =>
    refine ⟨?_, fun _ => hvacuous fun h => by rw [hpc] at h; nomatch h⟩
    apply Nat.le_of_eq
    rw [State.sent, State.sent, State.got, State.got, htr, takenBy_concat_none _ (.inl ho), readFrom_concat_write,
      owes_after_pair (hnext.imp And.left id), owes_of_pairWrite hpc]

/-- `data_in_len` is the length of the block that goes to the socket and to `fd_pair[1]`. -/
def Measured (s : State) : Prop := s.pc = .tipcWrite ∨ s.pc = .pairWrite → s.dataInLen = s.block.length

theorem afterStdin_dataInLen (s : State) : s.afterStdin.dataInLen = s.dataInLen := by
  obtain ⟨pc, -, heq⟩ := afterStdin_eq s
  rw [heq]

theorem dataInLen_read {data : Octets} (hs : step o s (.read (some data)) = some s') (hpc : s'.pc = .tipcWrite) :
    s'.dataInLen = data.length := by
  obtain ⟨-, hs⟩ := Option.ite_none_right_eq_some.mp hs
  split at hs
  · obtain ⟨-, hs⟩ := Option.ite_none_right_eq_some.mp hs
    obtain rfl := Option.some.inj hs
    nomatch hpc
  · obtain rfl := Option.some.inj hs
    rfl
  · obtain rfl := Option.some.inj hs
    nomatch hpc
  · nomatch hs

/-- A write to the socket or to `fd_pair[1]` takes no more than `data_in_len` says, and leaves it. -/
theorem dataInLen_write {res : WriteRes} (hs : step o s (.write res) = some s')
    (hpc : s.pc = .tipcWrite ∨ s.pc = .pairWrite) : (res.count : ℤ) ≤ s.dataInLen ∧ s'.dataInLen = s.dataInLen := by
  rcases hpc with hpc | hpc
  all_goals
    simp only [step, hpc] at hs
    obtain ⟨hcount, hs⟩ := Option.ite_none_right_eq_some.mp hs
    obtain rfl := Option.some.inj hs
    refine ⟨hcount, ?_⟩
    split
  · rfl
  · rfl
  · rfl
  · rw [afterStdin_dataInLen]
    rfl

theorem Measured.step {l : Label} (h : Measured s) (hs : step o s l = some s') : Measured s' := by
  have hnot : s'.pc.Idle → Measured s' := by
    intro hidle hpc
    rcases hpc with hpc | hpc <;> exact absurd hidle (by rw [hpc]; decide)
  cases effect hs with
  | idle _ hidle' _ _ _ => exact hnot hidle'
  | read fd data _ hblock _ hfd =>
    intro hpc
    rcases hpc with hpc | hpc
    · rw [hblock, dataInLen_read hs hpc]
    · rcases hfd with ⟨-, -, hpc', -⟩ | ⟨-, hpc', -⟩ | ⟨-, hpc', -⟩ <;> rw [hpc'] at hpc <;> nomatch hpc
  | stdout res _ _ _ hnext => exact hnot (idle_of_stdout hnext)
  | tipc res hpc hblock _ _ _ =>
    intro _
    rw [hblock, (dataInLen_write hs (.inl hpc)).2]
    exact h (.inl hpc)
  | pair res hpc _ _ hnext =>
    rcases hnext with ⟨-, hblock⟩ | hgoes
    · intro _
      rw [hblock, (dataInLen_write hs (.inr hpc)).2]
      exact h (.inr hpc)
    · exact hnot hgoes.idle.1

/-- As long as the program goes on, `stdout` is never behind what has come, and a step after which it is not further ahead
    has brought nothing of a block from `stdin` there. -/
theorem printed_step {l : Label} (h : Measured s) (hs : step o s l = some s') (hne : s'.pc ≠ .exited) :
    s'.came + s.printed ≤ s.came + s'.printed ∧ (s'.came + s.printed = s.came + s'.printed → Silent o (s, l, s')) := by
  have hvacuous : s.pc ≠ .pairWrite → Silent o (s, l, s') := fun hpc _ _ h => absurd h hpc
  cases effect hs with
  | idle hidle hidle' _ htr _ =>
    refine ⟨?_, fun _ => hvacuous fun h => absurd hidle (by rw [h]; decide)⟩
    apply Nat.le_of_eq
    rw [State.printed, State.printed, State.came, State.came, htr, owes_of_idle hidle', owes_of_idle hidle]
  | read fd data hidle hblock htr hfd =>
    refine ⟨?_, fun _ => hvacuous fun h => absurd hidle (by rw [h]; decide)⟩
    rw [State.printed, State.printed, State.came, State.came, htr, takenBy_concat_read, readFrom_concat,
      owes_of_idle hidle, List.length_append]
    rcases hfd with ⟨rfl, -, hpc, -⟩ | ⟨rfl, hpc, -⟩ | ⟨rfl, hpc, -⟩
    all_goals simp [State.owes, hpc, Event.readFrom, hblock, Nat.add_comm, Nat.add_left_comm, Nat.add_assoc]
  | stdout res hpc _ htr hnext =>
    -- the program goes on only if `stdout` has taken the whole block
    obtain ⟨hgoes, hwhole⟩ := hnext.resolve_left hne
    have howes : s.owes .stdout = s.block := by rcases hpc with hpc | hpc <;> simp only [State.owes, hpc]
    refine ⟨?_, fun _ => hvacuous fun h => ?_⟩
    · apply Nat.le_of_eq
      rw [State.printed, State.printed, State.came, State.came, htr, takenBy_concat_whole _ _ hwhole,
        readFrom_concat_write, owes_of_idle hgoes.idle.1, howes, List.length_append]
      rfl
    · rcases hpc with hpc | hpc <;> rw [hpc] at h <;> nomatch h
  | tipc res hpc hblock _ htr hnext =>
    have hnone : s.owes .stdout = [] := by simp only [State.owes, hpc]
    have hnone' : s'.owes .stdout = [] := by
      rcases hnext with ⟨-, hpc'⟩ | ⟨-, hpc'⟩ <;> simp only [State.owes, hpc']
    refine ⟨?_, fun _ => hvacuous fun h => by rw [hpc] at h; nomatch h⟩
    apply Nat.le_of_eq
    rw [State.printed, State.printed, State.came, State.came, htr, takenBy_concat_none _ (.inl (by decide)),
      readFrom_concat_write, hnone, hnone']
  | pair res hpc _ htr hnext =>
    have hlen := h (.inr hpc)
    have hcount := (dataInLen_write hs (.inr hpc)).1
    have htaken : (Event.write o.teeFd s.block res.count).takenBy .stdout =
        if o.teeFd = .stdout then s.block.take res.count else [] := rfl
    rw [State.printed, State.printed, State.came, State.came, htr, takenBy_concat, readFrom_concat_write, htaken,
      owes_after_pair (hnext.imp And.left id), owes_of_pairWrite hpc, List.length_append]
    refine ⟨by omega, fun heq res' hres' _ => ?_⟩
    rw [← Label.write.inj hres']
    by_cases ho : o.teeFd = .stdout
    · rw [if_pos ho, List.length_take] at heq
      exact .inr (by omega)
    · exact .inl ho

/-- A run that has not ended in `exit` has not been there. -/
theorem ne_exited_of_run {init : State} {tr : List (State × Label × State)} (h : Lts.Run (step o) init tr s)
    (hne : s.pc ≠ .exited) : ∀ t ∈ tr, t.2.2.pc ≠ .exited := by
  induction h with
  | nil => exact List.forall_mem_nil _
  | snoc _ hs ih =>
    intro t ht
    rcases List.mem_append.mp ht with hmem | hlast
    · exact ih (pc_ne_exited hs) t hmem
    · rw [List.mem_singleton.mp hlast]
      exact hne

theorem measured_of_reach {buf : Octets} (h : Lts.Reach (step o) (start o buf) s) : Measured s := by
  refine h.inv ?_ fun _ _ _ hm hs => hm.step hs
  intro hpc
  have hidle := idle_start o buf
  rcases hpc with hpc | hpc <;> exact absurd hidle (by rw [hpc]; decide)

/-- Unless `fd_pair[1]` is the socket, whose second write can supply what the first one has left, nothing is made up
    for. -/
theorem lossless_of_relayed {buf : Octets} {tr : List (State × Label × State)} (ho : o.teeFd ≠ .tipc)
    (h : Lts.Run (step o) (start o buf) tr s) (hb : s.BetweenRounds) (hr : Relayed s) : ∀ t ∈ tr, Lossless o t := by
  have hidle : s.pc.Idle := by rcases hb with hpc | hpc <;> rw [hpc] <;> decide
  have hne : s.pc ≠ .exited := by rcases hb with hpc | hpc <;> rw [hpc] <;> decide
  have hnone (fd : Fd) : (start o buf).owes fd = [] := owes_of_idle (idle_start o buf) fd
  -- between two rounds nothing is in flight, so what is sent is what has been taken
  have hsent : s.sent = s.got := by
    rw [State.sent, State.got, owes_of_idle hidle, hr.toSocket]
    rfl
  have hprinted : s.came = s.printed := by
    rw [State.printed, State.came, owes_of_idle hidle, hr.toStdout]
    rfl
  have hwhole := (h.le_and_forall (f := State.sent) (g := State.got) (by rw [State.sent, hnone]; exact Nat.zero_le _)
    fun t ht => sent_step ho (h.step_of_mem ht).2).2 hsent
  have hsilent := (h.le_and_forall (f := State.came) (g := State.printed) (Nat.zero_le _) fun t ht =>
    printed_step (measured_of_reach (h.step_of_mem ht).1) (h.step_of_mem ht).2 (ne_exited_of_run h hne t ht)).2 hprinted
  exact fun t ht => (hwhole t ht).lossless ho (hsilent t ht)

theorem carries_of_run {buf : Octets} {tr : List (State × Label × State)}
    (h : Lts.Run (step o) (start o buf) tr s) (hl : ∀ t ∈ tr, Lossless o t) :
    Carries s ∧ ∀ t ∈ tr, Carries t.1 ∧ Carries t.2.2 :=
  h.inv (carries_start o buf) (fun _ _ _ _ hI hC hs => hI.step hs hC) hl

/-- **What the loop relays.** If every step of a run is lossless then everything is relayed after every round; and
    unless an unassigned `fd_pair[1]` is the socket, a round with all relayed means that every step up to there was
    lossless. -/
theorem relay (buf : Octets) {tr : List (State × Label × State)} (h : Lts.Run (step o) (start o buf) tr s) :
    ((∀ t ∈ tr, Lossless o t) → ∀ t ∈ tr, t.2.2.BetweenRounds → Relayed t.2.2) ∧
      (o.teeFd ≠ .tipc → s.BetweenRounds → Relayed s → ∀ t ∈ tr, Lossless o t) := by
  constructor
  · intro hl t ht hb
    exact ((carries_of_run h hl).2 t ht).2.relayed hb
  · exact fun ho hb hr => lossless_of_relayed ho h hb hr

/-! ## Two runs -/

/-- Without `--tee`; `fd_pair[1]` is no descriptor. -/
def plainOpts : Opts := ⟨false, 66000, .other (-1)⟩

/-- `poll` has reported `POLLIN` on `stdin`. -/
def stdinReady : Revents := ⟨true, false, false, false, false⟩

/-- `poll` has reported `POLLIN` on the socket. -/
def tipcReady : Revents := ⟨false, false, true, false, false⟩

/-- One block in each direction. -/
def wholeBlocks : List Label :=
  [.poll (some stdinReady), .read (some [1, 2]), .write .again, .write (.taken 2), .write .failed,
    .poll (some tipcReady), .read (some [7]), .write (.taken 1)]

theorem wholeBlocks_exec : (Lts.exec (step plainOpts) (start plainOpts []) wholeBlocks).isSome = true := by
  decide

def relayedBlocks : State := Lts.final _ _ wholeBlocks wholeBlocks_exec

theorem relay_wholeBlocks : Relayed relayedBlocks := by
  have hrun : Lts.Run (step plainOpts) (start plainOpts [])
      (Lts.transitions (step plainOpts) (start plainOpts []) wholeBlocks) relayedBlocks :=
    Lts.run_of_exec (Option.some_get wholeBlocks_exec).symm
  obtain ⟨hrelay, hlossless⟩ := relay [] hrun
  have hl := hlossless (by decide) (.inl (by decide)) ⟨by decide, by decide⟩
  obtain ⟨t, ht, hfinal⟩ := hrun.exists_last (by decide)
  rw [← hfinal]
  exact hrelay hl t ht (by rw [hfinal]; exact .inl (by decide))

/-- `fd_pair[1]` is the socket: the second write brings the octet that the first one has left, where the two are equal. -/
example : (Lts.exec (step ⟨false, 66000, .tipc⟩) (start ⟨false, 66000, .tipc⟩ [])
    [.poll (some stdinReady), .read (some [1, 1]), .write (.taken 1), .write (.taken 1)]).map
      (fun s => (takenBy .tipc s.trace, readFrom [.stdin] s.trace)) = some ([1, 1], [1, 1]) := by
  decide

/-- The socket takes one octet of two. -/
def shortBlock : List Label :=
  [.poll (some stdinReady), .read (some [1, 2]), .write (.taken 1), .write .failed]

theorem shortBlock_exec : (Lts.exec (step plainOpts) (start plainOpts []) shortBlock).isSome = true := by
  decide

/-- The octet that a short write leaves behind is lost, and the loop goes on. -/
theorem relay_loses :
    ¬ ∀ (o : Opts) (buf : Octets) (s : State), Lts.Reach (step o) (start o buf) s → s.BetweenRounds → Relayed s := by
  intro h
  have hr := h plainOpts [] _ (Lts.reach_final shortBlock_exec) (.inl (by decide))
  have hne : takenBy .tipc (Lts.final _ _ shortBlock shortBlock_exec).trace ≠
      readFrom [.stdin] (Lts.final _ _ shortBlock shortBlock_exec).trace := by
    decide
  exact hne hr.toSocket

end Pipe
end Tipcutils
