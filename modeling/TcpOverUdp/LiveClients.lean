import TcpOverUdp.Parent

namespace TcpOverUdp

def ParentEvent.requester : ParentEvent → List ClientAddress
  | .request client _ => [client]
  | _ => []

namespace Parent

def remembering : Machine (Parent × List ClientAddress) ParentEvent :=
  machine.ghost fun _ e _ history => history ++ e.requester

/-- The table is the memory of the requests, and no two children share a process number. -/
structure Consistent (x : Parent × List ClientAddress) : Prop where
  table : x.1.cInfo.Represents (BoundedMemory.ofHistory 20 x.2)
  pids : (x.1.children.map Child.pid).Nodup
  requested : ∀ client ∈ x.1.running, client ∈ x.2

variable {x y : Parent × List ClientAddress} {e : ParentEvent} {client : ClientAddress}

lemma consistent_start : Consistent (start, []) where
  table := KnownClients.represents_empty
  pids := List.nodup_nil
  requested := by simp [running, start, runningOf]

lemma Consistent.known_iff (h : Consistent x) :
    client ∈ x.1.cInfo.clients ↔ AmongFirst 20 x.2 client := by
  rw [← KnownClients.chk_iff, h.table.chk_iff, BoundedMemory.mem_ofHistory_iff]

lemma remembering_step (h : remembering.step x e = some y) :
    Moves x.1 e y.1 ∧ y.2 = x.2 ++ e.requester := by
  obtain ⟨hstep, hhistory⟩ := Machine.ghost_step.mp h
  exact ⟨step_moves hstep, hhistory⟩

lemma Consistent.add (h : Consistent x) (hnew : client ∉ x.1.cInfo.clients) :
    (x.1.cInfo.addClientToKnownClientList client.1 client.2).Represents
      (BoundedMemory.ofHistory 20 (x.2 ++ [client])) := by
  rw [BoundedMemory.ofHistory_concat]
  apply h.table.add
  rw [← Bool.not_eq_true, KnownClients.chk_iff]
  exact hnew

theorem Consistent.step (h : Consistent x) (hstep : remembering.step x e = some y) :
    Consistent y := by
  obtain ⟨hmove, hhistory⟩ := remembering_step hstep
  obtain ⟨q, history⟩ := y
  obtain rfl : history = x.2 ++ e.requester := hhistory
  have hgrow : ∀ k ∈ x.1.running, k ∈ x.2 ++ e.requester :=
    fun k hk => List.mem_append_left _ (h.requested k hk)
  cases hmove with
  | @recognised client fork hknown =>
    -- the memory has the client already
    refine ⟨?_, h.pids, hgrow⟩
    show x.1.cInfo.Represents (BoundedMemory.ofHistory 20 (x.2 ++ [client]))
    rw [BoundedMemory.ofHistory_concat, BoundedMemory.insert_of_mem]
    · exact h.table
    · rw [← h.table.chk_iff, KnownClients.chk_iff]
      exact hknown
  | @unforked client fork hnew hfork => exact ⟨h.add hnew, h.pids, hgrow⟩
  | @forked client fork c hnew hfork hpid =>
    refine ⟨h.add hnew, ?_, fun k hk => ?_⟩
    · show ((x.1.children ++ [c]).map Child.pid).Nodup
      rw [List.map_append, List.nodup_append]
      refine ⟨h.pids, by simp, fun a ha b hb => ?_⟩
      obtain rfl : b = c.pid := by simpa using hb
      exact fun hab => hpid (hab ▸ ha)
    · rw [running, runningOf_concat] at hk
      rcases List.mem_append.mp hk with hk | hk
      · exact hgrow k hk
      · split_ifs at hk
        · cases hk
        · rw [List.mem_singleton, ForkResult.child_client hfork] at hk
          simp [hk, ParentEvent.requester]
  | @child c e phase hc hnext =>
    simp only [ParentEvent.requester, List.append_nil]
    refine ⟨h.table, ?_, fun k hk => h.requested k ?_⟩
    · show ((setPhase c.pid phase x.1.children).map Child.pid).Nodup
      rw [map_pid_setPhase]
      exact h.pids
    · rcases runningOf_next h.pids hc hnext with ⟨-, hperm⟩ | ⟨-, hsame⟩
      · exact hperm.mem_iff.mpr (List.mem_cons_of_mem _ hk)
      · rw [running, hsame] at hk
        exact hk
  | sigChld =>
    simp only [ParentEvent.requester, List.append_nil]
    refine ⟨h.table, h.pids.sublist (List.filter_sublist.map _), fun k hk => h.requested k ?_⟩
    rw [running, runningOf_reaped] at hk
    exact hk

lemma Consistent.step_parent {p q : Parent} {history : List ClientAddress}
    (h : Consistent (p, history)) (hstep : p.step e = some q) :
    Consistent (q, history ++ e.requester) :=
  h.step (Machine.ghost_step.mpr ⟨hstep, rfl⟩)

/-- A client whose child runs is recognised, and no client has two children that run. -/
def SingleChild (x : Parent × List ClientAddress) (e : ParentEvent)
    (y : Parent × List ClientAddress) : Prop :=
  (∀ client fork, e = .request client fork → client ∈ x.1.running →
      x.1.cInfo.chkRequestRetransmitted client.1 client.2 = true) ∧
    y.1.running.Nodup

/-- A client whose child runs and that sends a request is among the first twenty distinct
clients that have sent one. -/
def Remembered (x : Parent × List ClientAddress) (e : ParentEvent)
    (_ : Parent × List ClientAddress) : Prop :=
  ∀ client fork, e = .request client fork → client ∈ x.1.running → AmongFirst 20 x.2 client

lemma Moves.running_nodup {p q : Parent} (h : Moves p e q)
    (hpids : (p.children.map Child.pid).Nodup) (hnodup : p.running.Nodup)
    (hnew : ∀ client fork, e = .request client fork → client ∈ p.running →
      client ∈ p.cInfo.clients) : q.running.Nodup := by
  cases h with
  | recognised => exact hnodup
  | unforked => exact hnodup
  | @forked client fork c hfresh hfork =>
    have hfree : client ∉ p.running := fun hc => hfresh (hnew client fork rfl hc)
    rw [running, runningOf_concat, ForkResult.child_client hfork]
    split_ifs
    · rw [List.append_nil]
      exact hnodup
    · rw [List.nodup_append]
      refine ⟨hnodup, List.nodup_singleton _, fun a ha b hb => ?_⟩
      obtain rfl := List.mem_singleton.mp hb
      exact fun hab => hfree (hab ▸ ha)
  | @child c e phase hc hnext =>
    rcases runningOf_next hpids hc hnext with ⟨-, hperm⟩ | ⟨-, hsame⟩
    · exact (List.nodup_cons.mp (hperm.nodup_iff.mp hnodup)).2
    · rw [running, hsame]
      exact hnodup
  | sigChld =>
    rw [running, runningOf_reaped]
    exact hnodup

/-- No second child is forked for a client whose child runs in a run in which such clients are
among the first twenty, and in no other. -/
theorem singleChild_iff (es : List ParentEvent) :
    remembering.Along SingleChild (start, []) es ↔
      remembering.Along Remembered (start, []) es := by
  refine Machine.along_congr_along (P := fun x => Consistent x ∧ x.1.running.Nodup) ?_ ?_
    ⟨consistent_start, List.nodup_nil⟩ es
  · rintro x e y ⟨hx, -⟩ hsingle hstep
    exact ⟨hx.step hstep, hsingle.2⟩
  · rintro x e y ⟨hx, hnodup⟩ hstep
    obtain ⟨hmove, -⟩ := remembering_step hstep
    simp only [SingleChild, Remembered, KnownClients.chk_iff, hx.known_iff]
    constructor
    · exact And.left
    · refine fun hrem => ⟨hrem, hmove.running_nodup hx.pids hnodup fun client fork he hc => ?_⟩
      exact hx.known_iff.mpr (hrem client fork he hc)

def twentyOneClients : List ParentEvent :=
  (List.range 21).map fun i : ℕ => .request ("10.0.0.1", i) (.waiting i true)

/-- The twenty-first client sends its request once more, and gets a second child. -/
theorem not_singleChild :
    ∃ p, machine.run start (twentyOneClients ++
        [.request ("10.0.0.1", 20) (.waiting 21 true)]) = some p ∧ ¬ p.running.Nodup := by
  have key : ∀ {r : Option Parent}, (r.map fun p => p.running.count ("10.0.0.1", 20)) = some 2 →
      ∃ p, r = some p ∧ ¬ p.running.Nodup := by
    intro r hobs
    obtain ⟨p, hp, hcount⟩ := Option.map_eq_some_iff.mp hobs
    refine ⟨p, hp, fun hnodup => ?_⟩
    have := List.nodup_iff_count_le_one.mp hnodup ("10.0.0.1", 20)
    omega
  exact key (by decide +kernel)

/-- Every entry in use belongs to a client whose child runs. -/
def Tracks (p : Parent) : Prop := ∀ client ∈ p.cInfo.clients, client ∈ p.running

/-- The table tracks the running children, and a client without one that sends a request gets
one, if a child can be forked for it. -/
def TracksLive (x : Parent × List ClientAddress) (e : ParentEvent)
    (y : Parent × List ClientAddress) : Prop :=
  y.1.Tracks ∧
    match e with
    | .request client (.waiting _ _) => client ∉ x.1.running → client ∈ y.1.running
    | _ => True

/-- A new client among the first twenty gets a child, and the child of none of them
terminates. -/
def Undisturbed (x : Parent × List ClientAddress) (e : ParentEvent)
    (_ : Parent × List ClientAddress) : Prop :=
  match e with
  | .request _ (.waiting _ _) => True
  | .request client _ => client ∉ x.2 → 20 ≤ x.2.toFinset.card
  | .child pid e => ∀ c ∈ x.1.children, c.pid = pid → c.phase.next e = some .terminated →
      ¬ AmongFirst 20 x.2 c.client
  | .sigChld => True

structure Alone (x : Parent × List ClientAddress) : Prop where
  consistent : Consistent x
  tracks : x.1.Tracks
  count : ∀ client ∈ x.1.cInfo.clients, x.1.running.count client ≤ 1

lemma alone_start : Alone (start, []) where
  consistent := consistent_start
  tracks client h := by simp [start, KnownClients.clients_empty] at h
  count client h := by simp [start, KnownClients.clients_empty] at h

lemma Consistent.known_step_iff (h : Consistent x) (hstep : remembering.step x e = some y)
    (client : ClientAddress) : client ∈ y.1.cInfo.clients ↔ client ∈ x.1.cInfo.clients ∨
      (e.requester = [client] ∧ client ∉ x.2 ∧ x.2.toFinset.card < 20) := by
  rw [(h.step hstep).known_iff, h.known_iff, (remembering_step hstep).2]
  cases e with
  | request k fork =>
    simp only [ParentEvent.requester, amongFirst_concat, List.cons.injEq, and_true]
    rw [eq_comm]
  | child pid e => simp [ParentEvent.requester]
  | sigChld => simp [ParentEvent.requester]

/-- A request that starts no child: the table tracks the running children unless its client is
new to it. -/
lemma Alone.request_iff {q : Parent} (h : Alone x) (hrun : q.running = x.1.running)
    (hknown : ∀ k, k ∈ q.cInfo.clients ↔
      k ∈ x.1.cInfo.clients ∨ (client = k ∧ k ∉ x.2 ∧ x.2.toFinset.card < 20)) :
    q.Tracks ↔ (client ∉ x.2 → 20 ≤ x.2.toFinset.card) := by
  simp only [Tracks, hknown, hrun]
  constructor
  · intro htracks hfresh
    by_contra hroom
    exact hfresh (h.consistent.requested _ (htracks client (Or.inr ⟨rfl, hfresh, by omega⟩)))
  · rintro hfull k (hk | ⟨rfl, hfresh, hroom⟩)
    · exact h.tracks k hk
    · have := hfull hfresh
      omega

lemma Alone.terminated_iff {q : Parent} (h : Alone x)
    (hperm : x.1.running.Perm (client :: q.running)) (hsame : q.cInfo = x.1.cInfo) :
    q.Tracks ↔ ¬ AmongFirst 20 x.2 client := by
  rw [← h.consistent.known_iff, Tracks, hsame]
  constructor
  · intro htracks hk
    -- its only child has ended, and its entry stays
    have hle := h.count client hk
    rw [hperm.count_eq, List.count_cons_self] at hle
    have := List.count_pos_iff.mpr (htracks client hk)
    omega
  · intro hk k hmem
    rcases List.mem_cons.mp (hperm.mem_iff.mp (h.tracks k hmem)) with rfl | hrest
    · exact absurd hmem hk
    · exact hrest

lemma Alone.tracksLive_iff_undisturbed (h : Alone x) (hstep : remembering.step x e = some y) :
    TracksLive x e y ↔ Undisturbed x e y := by
  have hknown := h.consistent.known_step_iff hstep
  obtain ⟨hmove, -⟩ := remembering_step hstep
  obtain ⟨q, history⟩ := y
  cases hmove with
  | @recognised client fork hclient =>
    have hmem : client ∈ x.2 := (h.consistent.known_iff.mp hclient).mem
    cases fork with
    | failed => exact iff_of_true ⟨h.tracks, trivial⟩ fun hfresh => absurd hmem hfresh
    | exited pid => exact iff_of_true ⟨h.tracks, trivial⟩ fun hfresh => absurd hmem hfresh
    | waiting pid sent =>
      exact iff_of_true ⟨h.tracks, fun hfree => absurd (h.tracks client hclient) hfree⟩ trivial
  | @unforked client fork hnew hfork =>
    cases fork with
    | failed =>
      show (Tracks _ ∧ True) ↔ _
      rw [and_true]
      exact h.request_iff rfl fun k => by simpa [ParentEvent.requester] using hknown k
    | exited pid => cases hfork
    | waiting pid sent => cases hfork
  | @forked client fork c hnew hfork hpid =>
    cases fork with
    | failed => cases hfork
    | exited pid =>
      obtain rfl := Option.some.inj hfork
      show (Tracks _ ∧ True) ↔ _
      rw [and_true]
      refine h.request_iff ?_ fun k => by simpa [ParentEvent.requester] using hknown k
      rw [running, runningOf_concat, if_pos rfl, List.append_nil]
      rfl
    | waiting pid sent =>
      obtain rfl := Option.some.inj hfork
      refine iff_of_true ⟨fun k hk => ?_, fun _ => ?_⟩ trivial
      · rw [running, runningOf_concat]
        rcases (hknown k).mp hk with hk | ⟨hk, -⟩
        · exact List.mem_append_left _ (h.tracks k hk)
        · obtain rfl : client = k := by simpa [ParentEvent.requester] using hk
          simp
      · show client ∈ runningOf _
        rw [runningOf_concat]
        simp
  | @child c e phase hc hnext =>
    show (Tracks _ ∧ True) ↔ _
    rw [and_true]
    rcases runningOf_next h.consistent.pids hc hnext with ⟨rfl, hperm⟩ | ⟨hphase, hsame⟩
    · refine (h.terminated_iff (q := ⟨_, setPhase c.pid .terminated _⟩) hperm rfl).trans ?_
      constructor
      · intro hk d hd hpid _
        rwa [List.inj_on_of_nodup_map h.consistent.pids hd hc hpid]
      · exact fun hall => hall c hc rfl hnext
    · refine iff_of_true (fun k hk => ?_) fun d hd hpid hterm => ?_
      · rw [running, hsame]
        exact h.tracks k hk
      · rw [List.inj_on_of_nodup_map h.consistent.pids hd hc hpid, hnext] at hterm
        exact absurd (Option.some.inj hterm) hphase
  | sigChld =>
    refine iff_of_true ⟨fun k hk => ?_, trivial⟩ trivial
    rw [running, runningOf_reaped]
    exact h.tracks k hk

lemma Alone.step (h : Alone x) (hstep : remembering.step x e = some y) (hlive : TracksLive x e y) :
    Alone y := by
  refine ⟨h.consistent.step hstep, hlive.1, ?_⟩
  have hknown := h.consistent.known_step_iff hstep
  obtain ⟨hmove, -⟩ := remembering_step hstep
  obtain ⟨q, history⟩ := y
  intro k hk
  -- a client that becomes known has never had a child
  have hcount : x.1.running.count k ≤ 1 := by
    rcases (hknown k).mp hk with hk | ⟨-, hfresh, -⟩
    · exact h.count k hk
    · rw [List.count_eq_zero_of_not_mem fun hmem => hfresh (h.consistent.requested k hmem)]
      exact zero_le_one
  cases hmove with
  | recognised => exact hcount
  | unforked => exact hcount
  | @forked client fork c hnew hfork hpid =>
    rw [running, runningOf_concat]
    split_ifs
    · rw [List.append_nil]
      exact hcount
    · rw [List.count_append, ForkResult.child_client hfork]
      rcases (hknown k).mp hk with hold | ⟨hreq, hfresh, -⟩
      · have hne : client ≠ k := fun heq => hnew (heq ▸ hold)
        have hone : (runningOf x.1.children).count k ≤ 1 := h.count k hold
        simpa [List.count_singleton, hne] using hone
      · have hzero : (runningOf x.1.children).count k = 0 :=
          List.count_eq_zero_of_not_mem fun hmem => hfresh (h.consistent.requested k hmem)
        rw [hzero, List.count_singleton]
        split_ifs <;> omega
  | @child c e phase hc hnext =>
    rcases runningOf_next h.consistent.pids hc hnext with ⟨-, hperm⟩ | ⟨-, hsame⟩
    · have hone : (runningOf x.1.children).count k ≤ 1 := hcount
      rw [hperm.count_eq, List.count_cons] at hone
      show (runningOf (setPhase c.pid phase x.1.children)).count k ≤ 1
      omega
    · rw [running, hsame]
      exact hcount
  | sigChld =>
    rw [running, runningOf_reaped]
    exact hcount

/-- The table tracks the running children in a run in which every new client among the first
twenty gets a child that never terminates, and in no other. -/
theorem tracksLive_iff (es : List ParentEvent) :
    remembering.Along TracksLive (start, []) es ↔
      remembering.Along Undisturbed (start, []) es :=
  Machine.along_congr_along (P := Alone) (fun _ _ _ h hlive hstep => h.step hstep hlive)
    (fun _ _ _ h hstep => h.tracksLive_iff_undisturbed hstep) alone_start es

/-- A client whose child has terminated and been reaped: its entry stays, and its next request
starts nothing. -/
theorem not_tracksLive :
    ∃ p, machine.run start [.request ("10.0.0.1", 5) (.waiting 1 true), .child 1 .read,
        .child 1 .exit, .sigChld, .request ("10.0.0.1", 5) (.waiting 2 true)] = some p ∧
      p.children = [] ∧ ¬ p.Tracks := by
  have key : ∀ {r : Option Parent}, (r.map fun p => (p.cInfo.clients, p.children)) =
      some ([("10.0.0.1", 5)], []) → ∃ p, r = some p ∧ p.children = [] ∧ ¬ p.Tracks := by
    intro r hobs
    obtain ⟨p, hp, hobs⟩ := Option.map_eq_some_iff.mp hobs
    obtain ⟨hclients, hchildren⟩ := Prod.mk.inj hobs
    refine ⟨p, hp, hchildren, fun h => ?_⟩
    have := h ("10.0.0.1", 5) (by simp [hclients])
    simp [running, runningOf, hchildren] at this
  exact key (by decide +kernel)

end Parent

end TcpOverUdp
