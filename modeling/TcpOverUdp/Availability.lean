import TcpOverUdp.Agreement
import TcpOverUdp.LosslessRun

namespace TcpOverUdp
open CWord

lemma KnownClients.mem_add {t : KnownClients} {client k : ClientAddress}
    (h : k ∈ (t.addClientToKnownClientList client.1 client.2).clients) :
    k ∈ t.clients ∨ k = client := by
  have hadd := clientsOf_addLoop client t.cInfo
  simp only [clients, addClientToKnownClientList] at h ⊢
  split_ifs at hadd
  · rcases List.mem_cons.mp (hadd.subset h) with h | h
    · exact Or.inr h
    · exact Or.inl h
  · rw [hadd] at h
    exact Or.inl h

namespace Parent

variable {p q : Parent} {client k : ClientAddress} {pid : ℤ} {e : ParentEvent}

lemma mem_clients_step (h : p.step e = some q) (hk : k ∈ q.cInfo.clients) :
    k ∈ p.cInfo.clients ∨ k ∈ e.requester := by
  cases step_moves h with
  | unforked => exact (KnownClients.mem_add hk).imp_right List.mem_singleton.mpr
  | forked => exact (KnownClients.mem_add hk).imp_right List.mem_singleton.mpr
  | _ => exact Or.inl hk

lemma step_request (hnew : client ∉ p.cInfo.clients) (hpid : pid ∉ p.children.map Child.pid) :
    p.step (.request client (.waiting pid true)) =
      some ⟨p.cInfo.addClientToKnownClientList client.1 client.2,
        p.children ++ [⟨pid, client, .waiting⟩]⟩ := by
  have hchk : ¬ p.cInfo.chkRequestRetransmitted client.1 client.2 = true :=
    fun h => hnew (KnownClients.chk_iff.mp h)
  simp only [step, request, if_neg hchk, ForkResult.child, if_neg hpid]

lemma step_read {cInfo : KnownClients} {children : List Child}
    (hpid : pid ∉ children.map Child.pid) :
    Parent.step ⟨cInfo, children ++ [⟨pid, client, .waiting⟩]⟩ (.child pid .read) =
      some ⟨cInfo, children ++ [⟨pid, client, .serving⟩]⟩ := by
  have hne : ∀ c ∈ children, c.pid ≠ pid := fun c hc heq => hpid (heq ▸ List.mem_map_of_mem hc)
  have hnone : children.find? (fun c => c.pid = pid) = none := by
    rw [List.find?_eq_none]
    exact fun c hc => by simpa using hne c hc
  have hset : setPhase pid .serving children = children := by
    unfold setPhase
    conv_rhs => rw [← List.map_id children]
    exact List.map_congr_left fun c hc => if_neg (hne c hc)
  simp only [setPhase] at hset
  simp [step, hnone, ChildPhase.next, setPhase, hset]

end Parent

namespace Handshake

variable {s t : Handshake} {e : HandshakeEvent} {client k : ClientAddress}

lemma Moves.phase_ne_idle (h : Moves s e t) (hk : s.phase k ≠ .idle) : t.phase k ≠ .idle := by
  have hask : ∀ client n sent, (s.ask client n sent).phase k ≠ .idle := by
    intro client n sent
    by_cases heq : k = client
    · rw [heq]
      exact ask_phase_ne_idle s client n sent
    · rwa [ask_phase_of_ne heq]
  have hreconnect : ∀ client pid, (s.reconnect client pid).phase k ≠ .idle := by
    intro client pid
    by_cases heq : k = client
    · rw [heq]
      simp [reconnect, enter]
    · simpa [reconnect, enter, heq] using hk
  cases h with
  | start => exact hask _ _ _
  | timeout => exact hask _ _ _
  | recv => exact hreconnect _ _
  | recvError => exact hreconnect _ _
  | serve => exact hk
  | child => exact hk
  | sigChld => exact hk
  | lose => exact hk

def OnlyStarted (s : Handshake) : Prop := ∀ k ∈ s.parent.cInfo.clients, s.phase k ≠ .idle

lemma OnlyStarted.move {past : List HandshakeEvent} (h : OnlyStarted s) (hrooted : Rooted past s)
    (hmove : Moves s e t) : OnlyStarted t := by
  intro k hk
  refine hmove.phase_ne_idle ?_
  cases hmove with
  | start => exact h k (parent_ask .. ▸ hk)
  | timeout => exact h k (parent_ask .. ▸ hk)
  | recv => exact h k hk
  | recvError => exact h k hk
  | @serve client n fork p hrequest hp =>
    rcases Parent.mem_clients_step hp hk with hk | hk
    · exact h k hk
    · rw [List.mem_singleton.mp hk]
      exact hrooted.requested _ hrequest
  | child _ hp =>
    rcases Parent.mem_clients_step hp hk with hk | hk
    · exact h k hk
    · cases hk
  | sigChld hp =>
    rcases Parent.mem_clients_step hp hk with hk | hk
    · exact h k hk
    · cases hk
  | lose => exact h k hk

end Handshake

namespace Service

variable {cfg : ServiceConfig} {s t : Service} {past : List HandshakeEvent}
  {client : ClientAddress} {pid : ℤ}

lemma exists_new_pid (s : Service) :
    ∃ pid : ℤ, pid ∉ s.parent.children.map Child.pid ∧
      pid ∉ s.control.serverAcks.map Prod.snd ∧ pid ∉ s.control.clientAcks := by
  obtain ⟨pid, hpid⟩ := Infinite.exists_notMem_finset
    (s.parent.children.map Child.pid ++ s.control.serverAcks.map Prod.snd ++
      s.control.clientAcks).toFinset
  simp only [List.mem_toFinset, List.mem_append, not_or] at hpid
  exact ⟨pid, hpid.1.1, hpid.1.2, hpid.2⟩

def invitation (cfg : ServiceConfig) (client : ClientAddress) : ServerAck :=
  ⟨announcedLength cfg client, 0⟩

def answer (cfg : ServiceConfig) (client : ClientAddress) : ServerAck :=
  ⟨announcedLength cfg client, toUnsigned (cfg.receivingWindowSize client)⟩

def introduction (cfg : ServiceConfig) (client : ClientAddress) (pid : ℤ) : List ServiceEvent :=
  [⟨.start client true, "", ⟨0, 0⟩⟩,
    ⟨.serve client 0 (.waiting pid true), cfg.fileName client, ⟨0, 0⟩⟩,
    ⟨.recv client pid, "", invitation cfg client⟩, ⟨.child pid .read, "", answer cfg client⟩]

lemma ask_first (s : Service) (client : ClientAddress) :
    s.ask cfg client 0 true = { s with
      phase := Function.update s.phase client (.requesting 0)
      requests := s.requests ++ [((client, 0), cfg.fileName client)] } := rfl

lemma Agreed.introduce (h : Agreed cfg past s) (hidle : s.phase client = .idle)
    (hnew : client ∉ s.parent.cInfo.clients) (hpid : pid ∉ s.parent.children.map Child.pid)
    (hserverAcks : pid ∉ s.control.serverAcks.map Prod.snd)
    (hclientAcks : pid ∉ s.control.clientAcks) :
    ∃ t, (machine cfg).run s (introduction cfg client pid) = some t ∧
      Agreed cfg (past ++ (introduction cfg client pid).map ServiceEvent.control) t ∧
      t.parent.children = s.parent.children ++ [⟨pid, client, .serving⟩] := by
  have hrequest := Parent.step_request hnew hpid
  have hchk : ¬ s.parent.cInfo.chkRequestRetransmitted client.1 client.2 = true :=
    fun h => hnew (KnownClients.chk_iff.mp h)
  set p : Parent := ⟨s.parent.cInfo.addClientToKnownClientList client.1 client.2,
    s.parent.children ++ [⟨pid, client, .waiting⟩]⟩ with hp
  set q : Parent := ⟨p.cInfo, s.parent.children ++ [⟨pid, client, .serving⟩]⟩ with hq
  have hread : p.step (.child pid .read) = some q := Parent.step_read hpid
  set u₁ := s.ask cfg client 0 true with hu₁
  set u₂ := u₁.serve cfg client (.waiting pid true) (cfg.fileName client) p with hu₂
  set u₃ := u₂.reconnect cfg client pid (invitation cfg client) with hu₃
  have h₁ : s.step cfg ⟨.start client true, "", ⟨0, 0⟩⟩ = some u₁ := by
    simp only [Service.step, if_pos hidle, hu₁]
  have h₂ : u₁.step cfg ⟨.serve client 0 (.waiting pid true), cfg.fileName client, ⟨0, 0⟩⟩ =
      some u₂ := by
    have hmem : ((client, 0), cfg.fileName client) ∈ u₁.requests := by simp [hu₁, ask_first]
    simp only [Service.step, if_pos hmem]
    exact congrArg (Option.map _) hrequest
  have h₃ : u₂.step cfg ⟨.recv client pid, "", invitation cfg client⟩ = some u₃ := by
    have hphase : u₂.phase client = .requesting 0 := by simp [hu₂, Service.serve, hu₁, ask_first]
    have hmem : ((client, pid), invitation cfg client) ∈ u₂.serverAcks := by
      simp [hu₂, Service.serve, hu₁, ask_first, Parent.reply, hchk, invitation, announcedLength]
    simp only [Service.step, hphase, if_pos hmem, hu₃]
  have h₄ : u₃.step cfg ⟨.child pid .read, "", answer cfg client⟩ =
      some (u₃.read pid (answer cfg client) q) := by
    have hmem : (pid, answer cfg client) ∈ u₃.clientAcks := by
      simp [hu₃, Service.reconnect, answer, invitation]
    simp only [Service.step, if_pos hmem]
    exact congrArg (Option.map _) hread
  refine ⟨u₃.read pid (answer cfg client) q, ?_, ?_, rfl⟩
  · exact Machine.run_cons_eq_some.mpr ⟨u₁, h₁, Machine.run_cons_eq_some.mpr ⟨u₂, h₂,
      Machine.run_cons_eq_some.mpr ⟨u₃, h₃, Machine.run_singleton h₄⟩⟩⟩
  · have hfresh : Handshake.Fresh u₁.control (.serve client 0 (.waiting pid true)) u₂.control := by
      intro c hc
      obtain rfl := Option.some.inj hc
      exact ⟨hserverAcks, hclientAcks⟩
    have a₁ := h.step (e := ⟨.start client true, "", ⟨0, 0⟩⟩) trivial h₁
    have a₂ := a₁.step hfresh h₂
    have a₃ := a₂.step (e := ⟨.recv client pid, "", invitation cfg client⟩) trivial h₃
    have a₄ := a₃.step (e := ⟨.child pid .read, "", answer cfg client⟩) trivial h₄
    simpa [introduction] using a₄

lemma onlyStarted_of_run {es : List ServiceEvent}
    (hfresh : (machine cfg).Along (fun s e t => Handshake.Fresh s.control e.control t.control)
      start es)
    (hrun : (machine cfg).run start es = some s) : s.control.OnlyStarted := by
  have hboth := Machine.run_history_along (M := machine cfg)
    (P := fun past s => Agreed cfg (past.map ServiceEvent.control) s ∧ s.control.OnlyStarted)
    (fun past u e t h hfresh hstep => by
      rw [List.map_append]
      exact ⟨h.1.step hfresh hstep, h.2.move h.1.rooted (step_moves hstep).control⟩)
    ⟨agreed_start, fun k hk => by cases hk⟩ hfresh hrun
  exact hboth.2

/-- Whatever the server has been through, a client that has not asked yet can be served, without
any other child taking part: there is an exchange after which the two ends of the transfer agree.
If the bursts for the window of the client add up to its file, there is then a run of the transfer
in which no number is beyond the table, the client writes what arrives of its file and starts to
close, and the server leaves its loop at the test. -/
theorem can_be_served {es : List ServiceEvent}
    (hfresh : (machine cfg).Along (fun s e t => Handshake.Fresh s.control e.control t.control)
      start es)
    (hrun : (machine cfg).run start es = some s) (hidle : s.phase client = .idle)
    (uninitialisedAck : ClientAck) (alarmBlocked : Bool) :
    ∃ pid fs t, (machine cfg).run s fs = some t ∧
      t.parent.children = s.parent.children ++ [⟨pid, client, .serving⟩] ∧
      (∀ channel, t.Ends cfg ⟨pid, client, .serving⟩
        (requestedTransfer cfg client uninitialisedAck alarmBlocked channel)) ∧
      let T := requestedTransfer cfg client uninitialisedAck alarmBlocked .reliableFifo
      (2 ≤ T.receivingWindowSize → T.totalNumSegments + T.receivingWindowSize < 2 ^ 31 →
        (∃ k, Transfer.sentBy T.receivingWindowSize k = T.totalNumSegments) →
        ∀ now, ∃ gs x, (∀ e ∈ gs, Transfer.calm e) ∧
          (Transfer.machine T).run (Transfer.start T now) gs = some x ∧
          (Transfer.machine T).Along (fun x e _ => x.SendsInTable T e) (Transfer.start T now) gs ∧
          x.sender.state = .leaving .index ∧ x.client.consumer ≠ .draining ∧
          x.client.written = arriving (cfg.files (cfg.fileName client))) := by
  have hagreed := agreed_of_run hfresh hrun
  have hnew : client ∉ s.parent.cInfo.clients :=
    fun hmem => onlyStarted_of_run hfresh hrun client hmem hidle
  obtain ⟨pid, hpid, hserverAcks, hclientAcks⟩ := s.exists_new_pid
  obtain ⟨t, ht, hafter, hchildren⟩ := hagreed.introduce hidle hnew hpid hserverAcks hclientAcks
  have hmem : ⟨pid, client, .serving⟩ ∈ t.parent.children := by simp [hchildren]
  refine ⟨pid, introduction cfg client pid, t, ht, hchildren,
    hafter.ends hmem rfl uninitialisedAck alarmBlocked, ?_⟩
  intro T hW hrange hsum now
  obtain ⟨k, hk⟩ := hsum
  obtain ⟨gs, x, hleads, hend⟩ := @Transfer.exists_complete_run T k rfl hW hrange hk now
  exact ⟨gs, x, hleads.calm, hleads.run, hleads.inTable, hend⟩

/-- While two clients are being served, a third one asks for a file of three segments. -/
theorem can_be_served_third :
    ∃ s pid fs t, (machine twoFiles).run start overtaking = some s ∧
      (machine twoFiles).run s fs = some t ∧ t.parent.children =
        [⟨1, ("10.0.0.1", 5), .serving⟩, ⟨2, ("10.0.0.1", 6), .serving⟩,
          ⟨pid, ("10.0.0.1", 7), .serving⟩] ∧
      let T := requestedTransfer twoFiles ("10.0.0.1", 7) ⟨0, 0, 0⟩ true .reliableFifo
      ∃ gs x, (Transfer.machine T).run (Transfer.start T ⟨0, 0⟩) gs = some x ∧
        x.client.written = arriving (List.replicate 1500 2) := by
  have hobs : ((machine twoFiles).run start overtaking).map
      (fun s => (s.parent.children, s.phase ("10.0.0.1", 7))) =
        some ([⟨1, ("10.0.0.1", 5), .serving⟩, ⟨2, ("10.0.0.1", 6), .serving⟩], .idle) := by
    decide +kernel
  obtain ⟨s, hs, hobs⟩ := Option.map_eq_some_iff.mp hobs
  obtain ⟨hbefore, hidle⟩ := Prod.mk.inj hobs
  obtain ⟨pid, fs, t, ht, hchildren, -, hserved⟩ :=
    @can_be_served twoFiles s ("10.0.0.1", 7) overtaking (by decide +kernel) hs hidle
      ⟨0, 0, 0⟩ true
  have htotal : (requestedTransfer twoFiles ("10.0.0.1", 7) ⟨0, 0, 0⟩ true
      .reliableFifo).totalNumSegments = 3 := by decide +kernel
  obtain ⟨gs, x, -, hx, -, -, -, hwritten⟩ :=
    hserved (show 2 ≤ 4 by decide) (by rw [htotal]; decide) ⟨2, htotal.symm⟩ ⟨0, 0⟩
  exact ⟨s, pid, fs, t, hs, ht, hchildren.trans (by rw [hbefore]; rfl), gs, x, hx, hwritten⟩

end Service

end TcpOverUdp
