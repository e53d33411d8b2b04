import TcpOverUdp.Handshake

namespace TcpOverUdp

variable {e : ParentEvent} {c : Child} {client : ClientAddress} {pid : ℤ}

lemma ForkResult.child_ne_serving {fork : ForkResult} (h : fork.child client = some c) :
    c.phase ≠ .serving := by
  cases fork with
  | failed => cases h
  | exited pid =>
    obtain rfl := Option.some.inj h
    simp
  | waiting pid sent =>
    obtain rfl := Option.some.inj h
    simp

lemma ChildPhase.read_of_next {phase : ChildPhase} {e : ChildEvent}
    (h : phase.next e = some .serving) : e = .read := by
  cases phase <;> cases e <;> simp [ChildPhase.next] at h ⊢

lemma ChildPhase.of_read {phase next : ChildPhase} (h : phase.next .read = some next) :
    phase = .waiting ∧ next = .serving := by
  cases phase with
  | waiting => exact ⟨rfl, (Option.some.inj h).symm⟩
  | serving => cases h
  | terminated => cases h

lemma ChildPhase.next_ne_waiting {phase : ChildPhase} (e : ChildEvent) :
    phase.next e ≠ some .waiting := by
  cases phase <;> cases e <;> simp [ChildPhase.next]

lemma phase_of_mem_setPhase {phase : ChildPhase} {children : List Child}
    (hc : c ∈ setPhase pid phase children) (hpid : c.pid = pid) : c.phase = phase := by
  obtain ⟨d, -, rfl⟩ := List.mem_map.mp hc
  split_ifs at hpid ⊢
  · rfl
  · contradiction

/-- A child after a step is a new one of the requester, or it was there before. -/
theorem Parent.mem_children_step {p q : Parent} (h : p.step e = some q) (hc : c ∈ q.children) :
    (∃ client fork, e = .request client fork ∧ fork.child client = some c) ∨
      ∃ d ∈ p.children, d.pid = c.pid ∧ d.client = c.client ∧
        (c.phase = .serving → d.phase = .serving ∨ e = .child c.pid .read) ∧
        (c.phase = .waiting → d.phase = .waiting) := by
  cases step_moves h with
  | recognised => exact Or.inr ⟨c, hc, rfl, rfl, Or.inl, id⟩
  | unforked => exact Or.inr ⟨c, hc, rfl, rfl, Or.inl, id⟩
  | @forked client fork d hnew hfork hpid =>
    rcases List.mem_append.mp hc with hc | hc
    · exact Or.inr ⟨c, hc, rfl, rfl, Or.inl, id⟩
    · obtain rfl := List.mem_singleton.mp hc
      exact Or.inl ⟨client, fork, rfl, hfork⟩
  | @child b e phase hb hnext =>
    obtain ⟨d, hd, rfl⟩ := List.mem_map.mp hc
    by_cases hpid : d.pid = b.pid
    · refine Or.inr ⟨d, hd, ?_⟩
      simp only [if_pos hpid]
      refine ⟨trivial, trivial, fun hserving => Or.inr ?_, fun hwaiting => ?_⟩
      -- the child that the step is about can only have begun to serve by reading
      · rw [hserving] at hnext
        rw [hpid, ChildPhase.read_of_next hnext]
      · rw [hwaiting] at hnext
        exact absurd hnext (ChildPhase.next_ne_waiting e)
    · refine Or.inr ⟨d, hd, ?_⟩
      simp only [if_neg hpid]
      exact ⟨trivial, trivial, Or.inl, id⟩
  | sigChld => exact Or.inr ⟨c, (List.mem_filter.mp hc).1, rfl, rfl, Or.inl, id⟩

lemma Parent.forked_mem {p q : Parent} {fork : ForkResult}
    (h : p.step (.request client fork) = some q) (hnew : client ∉ p.cInfo.clients)
    (hfork : fork.child client = some c) : c ∈ q.children := by
  cases step_moves h with
  | recognised hknown => exact absurd hknown hnew
  | unforked _ hnone =>
    rw [hfork] at hnone
    cases hnone
  | forked _ hsome _ =>
    obtain rfl := Option.some.inj (hfork.symm.trans hsome)
    simp

lemma Parent.nodup_pids_step {p q : Parent} (h : p.step e = some q)
    (hpids : (p.children.map Child.pid).Nodup) : (q.children.map Child.pid).Nodup := by
  cases step_moves h with
  | recognised => exact hpids
  | unforked => exact hpids
  | @forked client fork c hnew hfork hpid =>
    rw [List.map_append, List.nodup_append]
    refine ⟨hpids, by simp, fun a ha b hb hab => hpid ?_⟩
    obtain rfl : b = c.pid := by simpa using hb
    exact hab ▸ ha
  | child =>
    rw [map_pid_setPhase]
    exact hpids
  | sigChld => exact hpids.sublist (List.filter_sublist.map _)

lemma Parent.mem_reply {p : Parent} {fork : ForkResult} {a : ClientAddress × ℤ}
    (h : a ∈ p.reply client fork) :
    client ∉ p.cInfo.clients ∧ a.1 = client ∧ fork = .waiting a.2 true := by
  simp only [reply, KnownClients.chk_iff] at h
  split_ifs at h with hknown
  · cases h
  · refine ⟨hknown, ?_⟩
    cases fork with
    | failed => cases h
    | exited pid => cases h
    | waiting pid sent =>
      cases sent with
      | false => cases h
      | true =>
        obtain rfl := List.mem_singleton.mp h
        exact ⟨rfl, rfl⟩

/-- The client that leaves its request loop, and the child it writes to. -/
def HandshakeEvent.answers : HandshakeEvent → List (ClientAddress × ℤ)
  | .recv client pid => [(client, pid)]
  | .recvError client pid => [(client, pid)]
  | _ => []

def HandshakeEvent.isLoss : HandshakeEvent → Bool
  | .loseRequest _ _ | .loseServerAck _ _ | .loseClientAck _ => true
  | _ => false

lemma HandshakeEvent.answers_of_isLoss {e : HandshakeEvent} (h : e.isLoss = true) :
    e.answers = [] := by
  cases e <;> first | rfl | cases h

namespace Handshake

inductive Moves (s : Handshake) : HandshakeEvent → Handshake → Prop
  | start {client sent} (hphase : s.phase client = .idle) :
    Moves s (.start client sent) (s.ask client 0 sent)
  | timeout {client sent timeoutnum} (hphase : s.phase client = .requesting timeoutnum) :
    Moves s (.timeout client sent) (s.ask client (timeoutnum + 1) sent)
  | recv {client pid timeoutnum} (hphase : s.phase client = .requesting timeoutnum)
      (hack : (client, pid) ∈ s.serverAcks) :
    Moves s (.recv client pid) (s.reconnect client pid)
  | recvError {client pid timeoutnum} (hphase : s.phase client = .requesting timeoutnum) :
    Moves s (.recvError client pid) (s.reconnect client pid)
  | serve {client timeoutnum fork p} (hrequest : (client, timeoutnum) ∈ s.requests)
      (hp : s.parent.step (.request client fork) = some p) :
    Moves s (.serve client timeoutnum fork)
      { s with parent := p, serverAcks := s.serverAcks ++ s.parent.reply client fork }
  | child {pid e p} (hread : e = .read → pid ∈ s.clientAcks)
      (hp : s.parent.step (.child pid e) = some p) :
    Moves s (.child pid e) { s with parent := p }
  | sigChld {p} (hp : s.parent.step .sigChld = some p) : Moves s .sigChld { s with parent := p }
  | lose {e requests serverAcks clientAcks} (hloss : e.isLoss = true)
      (hrequests : requests ⊆ s.requests) (hserverAcks : serverAcks ⊆ s.serverAcks)
      (hclientAcks : clientAcks ⊆ s.clientAcks) :
    Moves s e { s with
      requests := requests, serverAcks := serverAcks, clientAcks := clientAcks }

theorem step_moves {s t : Handshake} {e : HandshakeEvent} (h : s.step e = some t) :
    Moves s e t := by
  cases e with
  | start client sent =>
    simp only [step] at h
    split_ifs at h with hphase
    obtain rfl := Option.some.inj h
    exact .start hphase
  | timeout client sent =>
    simp only [step] at h
    split at h
    · rename_i timeoutnum hphase
      obtain rfl := Option.some.inj h
      exact .timeout hphase
    · cases h
  | recv client pid =>
    simp only [step] at h
    split at h
    · rename_i timeoutnum hphase
      split_ifs at h with hack
      obtain rfl := Option.some.inj h
      exact .recv hphase hack
    · cases h
  | recvError client pid =>
    simp only [step] at h
    split at h
    · rename_i timeoutnum hphase
      obtain rfl := Option.some.inj h
      exact .recvError hphase
    · cases h
  | serve client timeoutnum fork =>
    simp only [step] at h
    split_ifs at h with hrequest
    obtain ⟨p, hp, rfl⟩ := Option.map_eq_some_iff.mp h
    exact .serve hrequest hp
  | child pid e =>
    simp only [step] at h
    split_ifs at h with hread
    obtain ⟨p, hp, rfl⟩ := Option.map_eq_some_iff.mp h
    exact .child (fun he => by_contra fun hpid => hread ⟨he, hpid⟩) hp
  | sigChld =>
    simp only [step] at h
    obtain ⟨p, hp, rfl⟩ := Option.map_eq_some_iff.mp h
    exact .sigChld hp
  | loseRequest client timeoutnum =>
    obtain rfl := Option.some.inj h
    exact .lose rfl List.erase_subset (List.Subset.refl _) (List.Subset.refl _)
  | loseServerAck client pid =>
    obtain rfl := Option.some.inj h
    exact .lose rfl (List.Subset.refl _) List.erase_subset (List.Subset.refl _)
  | loseClientAck pid =>
    obtain rfl := Option.some.inj h
    exact .lose rfl (List.Subset.refl _) (List.Subset.refl _) List.erase_subset

/-- The events that lead from the start of a client to a child that serves it. -/
def exchange (client : ClientAddress) (pid : ℤ) (sent : Bool) (number : ℕ) :
    List HandshakeEvent :=
  [.start client sent, .serve client number (.waiting pid true), .recv client pid,
    .child pid .read]

/-- The first `k` events of an exchange of the client and the child have happened, in order. -/
def Exchanged (k : ℕ) (past : List HandshakeEvent) (client : ClientAddress) (pid : ℤ) : Prop :=
  ∃ sent number, ((exchange client pid sent number).take k).Sublist past

/-- No process gets the number of a datagram in flight, and a client whose `recv` fails writes to
the port of no child. -/
def Fresh (s : Handshake) (e : HandshakeEvent) (_ : Handshake) : Prop :=
  match e with
  | .serve client _ fork => ∀ c ∈ fork.child client,
      c.pid ∉ s.serverAcks.map Prod.snd ∧ c.pid ∉ s.clientAcks
  | .recvError _ pid => pid ∉ s.parent.children.map Child.pid
  | _ => True

instance (s t : Handshake) (e : HandshakeEvent) : Decidable (Fresh s e t) :=
  match e with
  | .serve client _ fork =>
    inferInstanceAs (Decidable (∀ c ∈ fork.child client,
      c.pid ∉ s.serverAcks.map Prod.snd ∧ c.pid ∉ s.clientAcks))
  | .recvError _ pid => inferInstanceAs (Decidable (pid ∉ s.parent.children.map Child.pid))
  | .start _ _ | .timeout _ _ | .recv _ _ | .child _ _ | .sigChld
  | .loseRequest _ _ | .loseServerAck _ _ | .loseClientAck _ => .isTrue trivial

/-- What the datagrams in flight and the processes tell about the past. -/
structure Rooted (past : List HandshakeEvent) (s : Handshake) : Prop where
  started : ∀ client, s.phase client ≠ .idle → ∀ pid, Exchanged 1 past client pid
  requested : ∀ r ∈ s.requests, s.phase r.1 ≠ .idle
  invited : ∀ a ∈ s.serverAcks, Exchanged 2 past a.1 a.2
  addressed : ∀ a ∈ s.serverAcks, ∀ c ∈ s.parent.children, c.pid = a.2 → c.client = a.1
  answered : ∀ pid ∈ s.clientAcks, ∀ c ∈ s.parent.children, c.pid = pid →
    Exchanged 3 past c.client pid
  served : ∀ c ∈ s.parent.children, c.phase = .serving → Exchanged 4 past c.client c.pid
  connected : ∀ a ∈ past.flatMap HandshakeEvent.answers, s.phase a.1 = .connected
  once : ((past.flatMap HandshakeEvent.answers).map Prod.fst).Nodup
  pids : (s.parent.children.map Child.pid).Nodup

variable {s t : Handshake} {past : List HandshakeEvent} {e : HandshakeEvent}

lemma Exchanged.concat {k : ℕ} (h : Exchanged k past client pid) (e : HandshakeEvent) :
    Exchanged k (past ++ [e]) client pid := by
  obtain ⟨sent, number, h⟩ := h
  exact ⟨sent, number, h.trans (List.sublist_append_left _ _)⟩

lemma exchanged_one {client : ClientAddress} (pid : ℤ) {sent : Bool}
    (h : .start client sent ∈ past) : Exchanged 1 past client pid :=
  ⟨sent, 0, List.singleton_sublist.mpr h⟩

lemma Exchanged.serve (h : Exchanged 1 past client pid) (number : ℕ) :
    Exchanged 2 (past ++ [.serve client number (.waiting pid true)]) client pid := by
  obtain ⟨sent, _, h⟩ := h
  exact ⟨sent, number, h.append (List.Sublist.refl [_])⟩

lemma Exchanged.recv (h : Exchanged 2 past client pid) :
    Exchanged 3 (past ++ [.recv client pid]) client pid := by
  obtain ⟨sent, number, h⟩ := h
  exact ⟨sent, number, h.append (List.Sublist.refl [_])⟩

lemma Exchanged.read (h : Exchanged 3 past client pid) :
    Exchanged 4 (past ++ [.child pid .read]) client pid := by
  obtain ⟨sent, number, h⟩ := h
  exact ⟨sent, number, h.append (List.Sublist.refl [_])⟩

lemma Exchanged.answer_mem (h : Exchanged 3 past client pid) :
    (client, pid) ∈ past.flatMap HandshakeEvent.answers := by
  obtain ⟨sent, number, h⟩ := h
  refine List.mem_flatMap.mpr ⟨.recv client pid, h.subset ?_, List.mem_singleton_self _⟩
  simp [exchange]

lemma rooted_start : Rooted [] start where
  started client h := absurd rfl h
  requested r h := by cases h
  invited a h := by cases h
  addressed a h := by cases h
  answered pid h := by cases h
  served c h := by cases h
  connected a h := by cases h
  once := List.nodup_nil
  pids := List.nodup_nil

lemma flatMap_answers_concat (past : List HandshakeEvent) (e : HandshakeEvent) :
    (past ++ [e]).flatMap HandshakeEvent.answers =
      past.flatMap HandshakeEvent.answers ++ e.answers := by
  simp

@[simp] lemma ask_serverAcks (s : Handshake) (client : ClientAddress) (n : ℕ) (sent : Bool) :
    (s.ask client n sent).serverAcks = s.serverAcks := by
  unfold ask
  split_ifs <;> rfl

@[simp] lemma ask_clientAcks (s : Handshake) (client : ClientAddress) (n : ℕ) (sent : Bool) :
    (s.ask client n sent).clientAcks = s.clientAcks := by
  unfold ask
  split_ifs <;> rfl

lemma ask_phase_of_ne {k : ClientAddress} (h : k ≠ client) (n : ℕ) (sent : Bool) :
    (s.ask client n sent).phase k = s.phase k := by
  unfold ask
  split_ifs <;> exact Function.update_of_ne h _ _

lemma ask_phase_ne_idle (s : Handshake) (client : ClientAddress) (n : ℕ) (sent : Bool) :
    (s.ask client n sent).phase client ≠ .idle := by
  unfold ask
  split_ifs <;> simp [enter]

lemma mem_requests_ask {r : ClientAddress × ℕ} {n : ℕ} {sent : Bool}
    (h : r ∈ (s.ask client n sent).requests) : r ∈ s.requests ∨ r.1 = client := by
  unfold ask at h
  split_ifs at h
  · exact Or.inl h
  · rcases List.mem_append.mp h with h | h
    · exact Or.inl h
    · exact Or.inr (congrArg Prod.fst (List.mem_singleton.mp h))
  · exact Or.inl h

lemma Rooted.ask (h : Rooted past s) (hphase : s.phase client ≠ .connected)
    (hstarted : ∀ pid, Exchanged 1 (past ++ [e]) client pid) (hanswers : e.answers = []) (n : ℕ)
    (sent : Bool) : Rooted (past ++ [e]) (s.ask client n sent) where
  started k hk pid := by
    by_cases heq : k = client
    · subst heq
      exact hstarted pid
    · rw [ask_phase_of_ne heq] at hk
      exact (h.started k hk pid).concat e
  requested r hr := by
    by_cases heq : r.1 = client
    · rw [heq]
      exact ask_phase_ne_idle s client n sent
    · rw [ask_phase_of_ne heq]
      exact h.requested r ((mem_requests_ask hr).resolve_right heq)
  invited a ha := (h.invited a (ask_serverAcks s client n sent ▸ ha)).concat e
  addressed a ha := by
    rw [parent_ask]
    exact h.addressed a (ask_serverAcks s client n sent ▸ ha)
  answered pid hpid := by
    rw [parent_ask]
    intro c hc heq
    exact (h.answered pid (ask_clientAcks s client n sent ▸ hpid) c hc heq).concat e
  served c hc hserving := by
    rw [parent_ask] at hc
    exact (h.served c hc hserving).concat e
  connected a ha := by
    rw [flatMap_answers_concat, hanswers, List.append_nil] at ha
    have hne : a.1 ≠ client := fun heq => hphase (heq ▸ h.connected a ha)
    rw [ask_phase_of_ne hne]
    exact h.connected a ha
  once := by
    rw [flatMap_answers_concat, hanswers, List.append_nil]
    exact h.once
  pids := by
    rw [parent_ask]
    exact h.pids

lemma Rooted.reconnect (h : Rooted past s) {n : ℕ} (hphase : s.phase client = .requesting n)
    (hanswers : e.answers = [(client, pid)])
    (hport : ∀ c ∈ s.parent.children, c.pid = pid → Exchanged 3 (past ++ [e]) c.client pid) :
    Rooted (past ++ [e]) (s.reconnect client pid) := by
  have hphases : ∀ k, k ≠ client → (s.reconnect client pid).phase k = s.phase k :=
    fun k hk => Function.update_of_ne hk _ _
  have hself : (s.reconnect client pid).phase client = .connected := Function.update_self _ _ _
  -- a client that has answered is connected, so that this is its first answer
  have hnew : ∀ a ∈ past.flatMap HandshakeEvent.answers, a.1 ≠ client := by
    intro a ha heq
    have hconnected := h.connected a ha
    rw [heq, hphase] at hconnected
    cases hconnected
  exact
    { started := fun k hk pid => by
        by_cases heq : k = client
        · rw [heq]
          exact (h.started client (by rw [hphase]; simp) pid).concat e
        · rw [hphases k heq] at hk
          exact (h.started k hk pid).concat e
      requested := fun r hr => by
        by_cases heq : r.1 = client
        · rw [heq, hself]
          simp
        · rw [hphases r.1 heq]
          exact h.requested r hr
      invited := fun a ha => (h.invited a ha).concat e
      addressed := h.addressed
      answered := fun p hp c hc heq => by
        rcases List.mem_append.mp hp with hp | hp
        · exact (h.answered p hp c hc heq).concat e
        · obtain rfl := List.mem_singleton.mp hp
          exact hport c hc heq
      served := fun c hc hserving => (h.served c hc hserving).concat e
      connected := fun a ha => by
        rw [flatMap_answers_concat, hanswers] at ha
        rcases List.mem_append.mp ha with ha | ha
        · rw [hphases a.1 (hnew a ha)]
          exact h.connected a ha
        · rw [List.mem_singleton.mp ha]
          exact hself
      once := by
        rw [flatMap_answers_concat, hanswers, List.map_append, List.nodup_append]
        refine ⟨h.once, by simp, fun a ha b hb => ?_⟩
        obtain ⟨x, hx, rfl⟩ := List.mem_map.mp ha
        obtain rfl : b = client := by simpa using hb
        exact hnew x hx
      pids := h.pids }

lemma Rooted.processes (h : Rooted past s) {p : Parent} (hanswers : e.answers = [])
    (hchildren : ∀ c ∈ p.children,
      (c.phase ≠ .serving ∧ c.pid ∉ s.serverAcks.map Prod.snd ∧ c.pid ∉ s.clientAcks) ∨
        ∃ d ∈ s.parent.children, d.pid = c.pid ∧ d.client = c.client ∧
          (c.phase = .serving → d.phase = .serving ∨ Exchanged 4 (past ++ [e]) c.client c.pid))
    (hpids : (p.children.map Child.pid).Nodup) :
    Rooted (past ++ [e]) { s with parent := p } where
  started k hk pid := (h.started k hk pid).concat e
  requested := h.requested
  invited a ha := (h.invited a ha).concat e
  addressed a ha c hc heq := by
    rcases hchildren c hc with ⟨-, hfresh, -⟩ | ⟨d, hd, hpid, hclient, -⟩
    · rw [heq] at hfresh
      exact absurd (List.mem_map_of_mem ha) hfresh
    · rw [← hclient]
      exact h.addressed a ha d hd (hpid.trans heq)
  answered pid hmem c hc heq := by
    rcases hchildren c hc with ⟨-, -, hfresh⟩ | ⟨d, hd, hpid, hclient, -⟩
    · rw [heq] at hfresh
      exact absurd hmem hfresh
    · rw [← hclient]
      exact (h.answered pid hmem d hd (hpid.trans heq)).concat e
  served c hc hserving := by
    rcases hchildren c hc with ⟨hphase, -⟩ | ⟨d, hd, hpid, hclient, hserved⟩
    · exact absurd hserving hphase
    · rcases hserved hserving with hold | hnew
      · rw [← hclient, ← hpid]
        exact (h.served d hd hold).concat e
      · exact hnew
  connected a ha := by
    rw [flatMap_answers_concat, hanswers, List.append_nil] at ha
    exact h.connected a ha
  once := by
    rw [flatMap_answers_concat, hanswers, List.append_nil]
    exact h.once
  pids := hpids

lemma Rooted.reply (h : Rooted past s) {acks : List (ClientAddress × ℤ)}
    (hinvited : ∀ a ∈ acks, Exchanged 2 past a.1 a.2)
    (haddressed : ∀ a ∈ acks, ∀ c ∈ s.parent.children, c.pid = a.2 → c.client = a.1) :
    Rooted past { s with serverAcks := s.serverAcks ++ acks } :=
  { h with
    invited := fun a ha => (List.mem_append.mp ha).elim (h.invited a) (hinvited a)
    addressed := fun a ha => (List.mem_append.mp ha).elim (h.addressed a) (haddressed a) }

lemma Rooted.serve (h : Rooted past s) {number : ℕ} {fork : ForkResult} {p : Parent}
    (hrequest : (client, number) ∈ s.requests)
    (hp : s.parent.step (.request client fork) = some p)
    (hfresh : ∀ c ∈ fork.child client, c.pid ∉ s.serverAcks.map Prod.snd ∧ c.pid ∉ s.clientAcks) :
    Rooted (past ++ [.serve client number fork])
      { s with parent := p, serverAcks := s.serverAcks ++ s.parent.reply client fork } := by
  have hpids := Parent.nodup_pids_step hp h.pids
  have hprocesses : Rooted (past ++ [.serve client number fork]) { s with parent := p } := by
    refine h.processes rfl (fun c hc => ?_) hpids
    rcases Parent.mem_children_step hp hc with
      ⟨k, f, he, hfork⟩ | ⟨d, hd, hpid, hclient, hserved, -⟩
    · obtain ⟨rfl, rfl⟩ := ParentEvent.request.inj he
      exact Or.inl ⟨ForkResult.child_ne_serving hfork, hfresh c hfork⟩
    · refine Or.inr ⟨d, hd, hpid, hclient, fun hserving => Or.inl ?_⟩
      exact (hserved hserving).resolve_right (by simp)
  refine hprocesses.reply (fun a ha => ?_) fun a ha c hc hpid => ?_
  · obtain ⟨-, hclient, hfork⟩ := Parent.mem_reply ha
    rw [hfork, hclient]
    exact (h.started client (h.requested _ hrequest) a.2).serve number
  · -- the child that is forked is the only one of its number
    obtain ⟨hnew, hclient, rfl⟩ := Parent.mem_reply ha
    have hforked := Parent.forked_mem hp hnew rfl
    rw [List.inj_on_of_nodup_map hpids hc hforked hpid, hclient]

theorem Rooted.move (h : Rooted past s) (hfresh : Fresh s e t) (hmove : Moves s e t) :
    Rooted (past ++ [e]) t := by
  cases hmove with
  | @start client sent hphase =>
    have hmem : .start client sent ∈ past ++ [.start client sent] :=
      List.mem_append_right _ List.mem_cons_self
    exact h.ask (by rw [hphase]; simp) (fun pid => exchanged_one pid hmem) rfl 0 _
  | @timeout client sent n hphase =>
    have hstarted := h.started client (by rw [hphase]; simp)
    exact h.ask (by rw [hphase]; simp) (fun pid => (hstarted pid).concat _) rfl _ _
  | recv hphase hack =>
    refine h.reconnect hphase rfl fun c hc hpid => ?_
    rw [h.addressed _ hack c hc hpid]
    exact (h.invited _ hack).recv
  -- by `Fresh`, the port that a failed `recv` leaves is that of no child
  | recvError hphase =>
    exact h.reconnect hphase rfl fun c hc hpid => absurd (hpid ▸ List.mem_map_of_mem hc) hfresh
  | serve hrequest hp => exact h.serve hrequest hp hfresh
  | @child pid e p hread hp =>
    refine h.processes rfl (fun c hc => ?_) (Parent.nodup_pids_step hp h.pids)
    rcases Parent.mem_children_step hp hc with ⟨k, f, he, -⟩ | ⟨d, hd, hpid, hclient, hserved, -⟩
    · cases he
    · refine Or.inr
        ⟨d, hd, hpid, hclient, fun hserving => (hserved hserving).imp_right fun he => ?_⟩
      obtain ⟨rfl, rfl⟩ := ParentEvent.child.inj he
      rw [← hclient]
      exact (h.answered c.pid (hread rfl) d hd hpid).read
  | sigChld hp =>
    refine h.processes rfl (fun c hc => ?_) (Parent.nodup_pids_step hp h.pids)
    rcases Parent.mem_children_step hp hc with ⟨k, f, he, -⟩ | ⟨d, hd, hpid, hclient, hserved, -⟩
    · cases he
    · refine Or.inr ⟨d, hd, hpid, hclient, fun hserving => Or.inl ?_⟩
      exact (hserved hserving).resolve_right (by simp)
  | lose hloss hrequests hserverAcks hclientAcks =>
    have hanswers := HandshakeEvent.answers_of_isLoss hloss
    exact
      { started := fun k hk pid => (h.started k hk pid).concat e
        requested := fun r hr => h.requested r (hrequests hr)
        invited := fun a ha => (h.invited a (hserverAcks ha)).concat e
        addressed := fun a ha => h.addressed a (hserverAcks ha)
        answered := fun p hp c hc hpid => (h.answered p (hclientAcks hp) c hc hpid).concat e
        served := fun c hc hserving => (h.served c hc hserving).concat e
        connected := fun a ha => h.connected a (by simpa [hanswers] using ha)
        once := by simpa [hanswers] using h.once
        pids := h.pids }

end Handshake

end TcpOverUdp
