import TcpOverUdp.Service
import TcpOverUdp.Integrity

namespace TcpOverUdp
open CWord

namespace Service

variable {cfg : ServiceConfig} {s t : Service} {e : ServiceEvent}

def announcedLength (cfg : ServiceConfig) (client : ClientAddress) : Word :=
  sentFileLength .big (cfg.files (cfg.fileName client)).length

/-- What the datagrams in flight carry, and what the processes have taken from them. -/
structure Agreed (cfg : ServiceConfig) (past : List HandshakeEvent) (s : Service) : Prop where
  rooted : Handshake.Rooted past s.control
  named : ∀ r ∈ s.requests, r.2 = cfg.fileName r.1.1
  announced : ∀ a ∈ s.serverAcks, a.2.sentFileLength = announcedLength cfg a.1.1
  received : ∀ client pid, .recv client pid ∈ past →
    (s.serverAck client).sentFileLength = announcedLength cfg client
  opened : ∀ c ∈ s.parent.children,
    (s.child c.pid).requestedFile = cfg.files (cfg.fileName c.client) ∧
      (s.child c.pid).sentFileLength = announcedLength cfg c.client
  echoed : ∀ a ∈ s.clientAcks, ∀ c ∈ s.parent.children, c.pid = a.1 →
    a.2.originalRecvWindow = toUnsigned (cfg.receivingWindowSize c.client)
  served : ∀ c ∈ s.parent.children, c.phase = .serving →
    (s.child c.pid).clientOriginalWindow = toUnsigned (cfg.receivingWindowSize c.client)

variable {past : List HandshakeEvent} {client : ClientAddress} {pid : ℤ}

lemma agreed_start : Agreed cfg [] start where
  rooted := Handshake.rooted_start
  named r h := by cases h
  announced a h := by cases h
  received client pid h := by cases h
  opened c h := by cases h
  echoed a h := by cases h
  served c h := by cases h

lemma ask_eq (s : Service) (client : ClientAddress) (n : ℕ) (sent : Bool) :
    ∃ requests, s.ask cfg client n sent =
        { s with phase := (s.ask cfg client n sent).phase, requests := requests } ∧
      ∀ r ∈ requests, r ∈ s.requests ∨ r.2 = cfg.fileName r.1.1 := by
  unfold ask
  split_ifs
  · exact ⟨s.requests, rfl, fun r hr => Or.inl hr⟩
  · refine ⟨_, rfl, fun r hr => ?_⟩
    rcases List.mem_append.mp hr with hr | hr
    · exact Or.inl hr
    · rw [List.mem_singleton.mp hr]
      exact Or.inr rfl
  · exact ⟨s.requests, rfl, fun r hr => Or.inl hr⟩

lemma recv_mem_concat {e : HandshakeEvent} (he : e.answers = [])
    (h : .recv client pid ∈ past ++ [e]) : .recv client pid ∈ past := by
  rcases List.mem_append.mp h with h | h
  · exact h
  · obtain rfl := List.mem_singleton.mp h
    cases he

lemma Agreed.keep (h : Agreed cfg past s) {e : HandshakeEvent}
    (hrooted : Handshake.Rooted (past ++ [e]) t.control) (he : e.answers = [])
    (hnamed : ∀ r ∈ t.requests, r ∈ s.requests ∨ r.2 = cfg.fileName r.1.1)
    (hserverAcks : t.serverAcks ⊆ s.serverAcks) (hclientAcks : t.clientAcks ⊆ s.clientAcks)
    (hserverAck : t.serverAck = s.serverAck) (hchild : t.child = s.child)
    (hchildren : ∀ c ∈ t.parent.children, ∃ d ∈ s.parent.children,
      d.pid = c.pid ∧ d.client = c.client ∧ (c.phase = .serving → d.phase = .serving)) :
    Agreed cfg (past ++ [e]) t where
  rooted := hrooted
  named r hr := (hnamed r hr).elim (h.named r) id
  announced a ha := h.announced a (hserverAcks ha)
  received k p hp := by
    rw [hserverAck]
    exact h.received k p (recv_mem_concat he hp)
  opened c hc := by
    obtain ⟨d, hd, hpid, hclient, -⟩ := hchildren c hc
    rw [hchild, ← hpid, ← hclient]
    exact h.opened d hd
  echoed a ha c hc hpid := by
    obtain ⟨d, hd, hdpid, hclient, -⟩ := hchildren c hc
    rw [← hclient]
    exact h.echoed a (hclientAcks ha) d hd (hdpid.trans hpid)
  served c hc hserving := by
    obtain ⟨d, hd, hpid, hclient, hserved⟩ := hchildren c hc
    rw [hchild, ← hpid, ← hclient]
    exact h.served d hd (hserved hserving)

lemma Agreed.reconnect (h : Agreed cfg past s) {e : HandshakeEvent} {n : ℕ} {record : ServerAck}
    (hrooted : Handshake.Rooted (past ++ [e]) (s.reconnect cfg client pid record).control)
    (hphase : s.phase client = .requesting n)
    (hrecv : ∀ k p, e = .recv k p → k = client ∧ record.sentFileLength = announcedLength cfg client)
    (hport : ∀ c ∈ s.parent.children, c.pid = pid → c.client = client) :
    Agreed cfg (past ++ [e]) (s.reconnect cfg client pid record) where
  rooted := hrooted
  named := h.named
  announced := h.announced
  received k p hp := by
    rcases List.mem_append.mp hp with hp | hp
    -- a client that has read its record is connected, and this one is not
    · have hconnected : s.phase k = .connected :=
        h.rooted.connected (k, p) (List.mem_flatMap.mpr ⟨_, hp, List.mem_singleton_self _⟩)
      have hne : k ≠ client := by
        rintro rfl
        rw [hphase] at hconnected
        cases hconnected
      simp only [Service.reconnect, Function.update_of_ne hne]
      exact h.received k p hp
    · obtain ⟨rfl, hlength⟩ := hrecv k p (List.mem_singleton.mp hp).symm
      simp only [Service.reconnect, Function.update_self]
      exact hlength
  opened := h.opened
  echoed a ha c hc hpid := by
    rcases List.mem_append.mp ha with ha | ha
    · exact h.echoed a ha c hc hpid
    · obtain rfl := List.mem_singleton.mp ha
      rw [hport c hc hpid]
  served := h.served

lemma child_serve {fork : ForkResult} {p : Parent} {c : Child} (name : String)
    (hp : s.parent.step (.request client fork) = some p) (hc : c ∈ p.children) :
    (c ∈ s.parent.children ∧ (s.serve cfg client fork name p).child c.pid = s.child c.pid) ∨
      fork.child client = some c ∧ (s.serve cfg client fork name p).child c.pid =
        ⟨cfg.files name, sentFileLength .big (cfg.files name).length, 0⟩ := by
  cases Parent.step_moves hp with
  | recognised hknown => exact Or.inl ⟨hc, by simp [serve, KnownClients.chk_iff, hknown]⟩
  | unforked hnew hfork => exact Or.inl ⟨hc, by simp [serve, KnownClients.chk_iff, hnew, hfork]⟩
  | @forked _ _ d hnew hfork hpid =>
    rcases List.mem_append.mp hc with hc | hc
    -- a child that is there keeps its number, so that the new one has another
    · have hne : c.pid ≠ d.pid := fun heq => hpid (heq ▸ List.mem_map_of_mem hc)
      exact Or.inl ⟨hc, by simp [serve, KnownClients.chk_iff, hnew, hfork, hne]⟩
    · obtain rfl := List.mem_singleton.mp hc
      exact Or.inr ⟨hfork, by simp [serve, KnownClients.chk_iff, hnew, hfork]⟩

lemma Agreed.serve (h : Agreed cfg past s) {n : ℕ} {fork : ForkResult} {p : Parent}
    {name : String}
    (hrooted : Handshake.Rooted (past ++ [.serve client n fork])
      (s.serve cfg client fork name p).control)
    (hrequest : ((client, n), name) ∈ s.requests)
    (hp : s.parent.step (.request client fork) = some p)
    (hfresh : ∀ c ∈ fork.child client, c.pid ∉ s.clientAcks.map Prod.fst) :
    Agreed cfg (past ++ [.serve client n fork]) (s.serve cfg client fork name p) := by
  obtain rfl : name = cfg.fileName client := h.named _ hrequest
  exact
    { rooted := hrooted
      named := h.named
      announced := fun a ha => by
        rcases List.mem_append.mp ha with ha | ha
        · exact h.announced a ha
        · obtain ⟨b, hb, rfl⟩ := List.mem_map.mp ha
          obtain ⟨-, hclient, -⟩ := Parent.mem_reply hb
          simp only [hclient, announcedLength]
      received := fun k q hq => h.received k q (recv_mem_concat rfl hq)
      opened := fun c hc => by
        rcases child_serve (cfg.fileName client) hp hc with ⟨hold, heq⟩ | ⟨hfork, heq⟩
        · rw [heq]
          exact h.opened c hold
        · rw [heq, ForkResult.child_client hfork]
          exact ⟨rfl, rfl⟩
      echoed := fun a ha c hc hpid => by
        rcases @child_serve cfg s client fork p c (cfg.fileName client) hp hc with
          ⟨hold, -⟩ | ⟨hfork, -⟩
        · exact h.echoed a ha c hold hpid
        -- no record in flight is for the new child
        · exact absurd (hpid ▸ List.mem_map_of_mem ha) (hfresh c hfork)
      served := fun c hc hserving => by
        rcases child_serve (cfg.fileName client) hp hc with ⟨hold, heq⟩ | ⟨hfork, -⟩
        · rw [heq]
          exact h.served c hold hserving
        · exact absurd hserving (ForkResult.child_ne_serving hfork) }

lemma Agreed.read (h : Agreed cfg past s) {record : ServerAck} {p : Parent}
    (hrooted : Handshake.Rooted (past ++ [.child pid .read]) (s.read pid record p).control)
    (hack : (pid, record) ∈ s.clientAcks) (hp : s.parent.step (.child pid .read) = some p) :
    Agreed cfg (past ++ [.child pid .read]) (s.read pid record p) := by
  have hchildren : ∀ c ∈ p.children, ∃ d ∈ s.parent.children, d.pid = c.pid ∧
      d.client = c.client ∧ (c.phase = .serving → d.phase = .serving ∨ c.pid = pid) := by
    intro c hc
    rcases Parent.mem_children_step hp hc with ⟨k, f, he, -⟩ | ⟨d, hd, hpid, hclient, hold, -⟩
    · cases he
    · exact ⟨d, hd, hpid, hclient, fun hserving =>
        (hold hserving).imp_right fun he => (ParentEvent.child.inj he).1.symm⟩
  exact
    { rooted := hrooted
      named := h.named
      announced := h.announced
      received := fun k q hq => h.received k q (recv_mem_concat rfl hq)
      opened := fun c hc => by
        obtain ⟨d, hd, hpid, hclient, -⟩ := hchildren c hc
        have hopened := h.opened d hd
        rw [hpid, hclient] at hopened
        by_cases heq : c.pid = pid
        · subst heq
          simpa [Service.read] using hopened
        · simpa [Service.read, heq] using hopened
      echoed := fun a ha c hc heq => by
        obtain ⟨d, hd, hpid, hclient, -⟩ := hchildren c hc
        rw [← hclient]
        exact h.echoed a ha d hd (hpid.trans heq)
      served := fun c hc hserving => by
        obtain ⟨d, hd, hpid, hclient, hold⟩ := hchildren c hc
        by_cases heq : c.pid = pid
        · subst heq
          simp only [Service.read, Function.update_self]
          rw [← hclient]
          exact h.echoed _ hack d hd hpid
        · simp only [Service.read, Function.update_of_ne heq]
          rw [← hpid, ← hclient]
          exact h.served d hd ((hold hserving).resolve_right heq) }

theorem Agreed.step (h : Agreed cfg past s)
    (hfresh : Handshake.Fresh s.control e.control t.control) (hstep : s.step cfg e = some t) :
    Agreed cfg (past ++ [e.control]) t := by
  have hmove := step_moves hstep
  have hrooted := h.rooted.move hfresh hmove.control
  cases hmove with
  | @start client sent =>
    obtain ⟨requests, heq, hnamed⟩ := @ask_eq cfg s client 0 sent
    rw [heq] at hrooted ⊢
    exact h.keep hrooted rfl hnamed (List.Subset.refl _) (List.Subset.refl _) rfl rfl
      fun c hc => ⟨c, hc, rfl, rfl, id⟩
  | @timeout client sent n =>
    obtain ⟨requests, heq, hnamed⟩ := @ask_eq cfg s client (n + 1) sent
    rw [heq] at hrooted ⊢
    exact h.keep hrooted rfl hnamed (List.Subset.refl _) (List.Subset.refl _) rfl rfl
      fun c hc => ⟨c, hc, rfl, rfl, id⟩
  | @recv client pid n name record hphase hack =>
    refine h.reconnect hrooted hphase (fun k p he => ?_) fun c hc hpid => ?_
    · obtain ⟨rfl, rfl⟩ := HandshakeEvent.recv.inj he
      exact ⟨rfl, h.announced _ hack⟩
    · exact h.rooted.addressed _ (List.mem_map_of_mem hack) c hc hpid
  | recvError hphase =>
    refine h.reconnect hrooted hphase (fun k p he => by cases he) fun c hc hpid => ?_
    exact absurd (hpid ▸ List.mem_map_of_mem hc) hfresh
  | serve hrequest hp => exact h.serve hrooted hrequest hp fun c hc => (hfresh c hc).2
  | read hack hp => exact h.read hrooted hack hp
  | @child pid f name record p hread hp =>
    refine h.keep hrooted rfl (fun r hr => Or.inl hr) (List.Subset.refl _) (List.Subset.refl _)
      rfl rfl fun c hc => ?_
    rcases Parent.mem_children_step hp hc with ⟨k, g, he, -⟩ | ⟨d, hd, hpid, hclient, hold, -⟩
    · cases he
    · exact ⟨d, hd, hpid, hclient, fun hserving => (hold hserving).resolve_right
        fun he => hread (ParentEvent.child.inj he).2⟩
  | sigChld hp =>
    refine h.keep hrooted rfl (fun r hr => Or.inl hr) (List.Subset.refl _) (List.Subset.refl _)
      rfl rfl fun c hc => ?_
    rcases Parent.mem_children_step hp hc with ⟨k, g, he, -⟩ | ⟨d, hd, hpid, hclient, hold, -⟩
    · cases he
    · exact ⟨d, hd, hpid, hclient, fun hserving => (hold hserving).resolve_right (by simp)⟩
  | lose hloss hrequests hserverAcks hclientAcks =>
    exact h.keep hrooted (HandshakeEvent.answers_of_isLoss hloss)
      (fun r hr => Or.inl (hrequests hr)) hserverAcks hclientAcks rfl rfl
      fun c hc => ⟨c, hc, rfl, rfl, id⟩

def clientConfig (cfg : ServiceConfig) (client : ClientAddress) (a : ServerAck) : ClientConfig where
  host := .big
  sizeT := cfg.clientSizeT client
  receivingWindowSize := cfg.receivingWindowSize client
  sentFileLength := a.sentFileLength

def requestedTransfer (cfg : ServiceConfig) (client : ClientAddress) (uninitialisedAck : ClientAck)
    (alarmBlocked : Bool) (channel : Discipline) : TransferConfig where
  file := cfg.files (cfg.fileName client)
  file_lt := cfg.file_lt client
  serverSizeT := cfg.serverSizeT
  clientSizeT := cfg.clientSizeT client
  receivingWindowSize := cfg.receivingWindowSize client
  window_pos := cfg.window_pos client
  window_lt := cfg.window_lt client
  uninitialisedAck := uninitialisedAck
  alarmBlocked := alarmBlocked
  channel := channel

/-- The child and its client are the two ends of a transfer. -/
structure Ends (cfg : ServiceConfig) (s : Service) (c : Child) (T : TransferConfig) : Prop where
  connected : s.phase c.client = .connected
  file : (s.child c.pid).requestedFile = T.file
  fileLength : toSigned (s.child c.pid).sentFileLength = T.server.fileLength
  window : (s.child c.pid).clientOriginalWindow = T.server.clientOriginalWindow
  client : clientConfig cfg c.client (s.serverAck c.client) = T.client

lemma agreed_of_run {es : List ServiceEvent}
    (hfresh : (machine cfg).Along (fun s e t => Handshake.Fresh s.control e.control t.control)
      start es)
    (hrun : (machine cfg).run start es = some s) :
    Agreed cfg (es.map ServiceEvent.control) s := by
  refine Machine.run_history_along (M := machine cfg)
    (P := fun past s => Agreed cfg (past.map ServiceEvent.control) s)
    (fun past s e t h hfresh hstep => ?_) agreed_start hfresh hrun
  rw [List.map_append]
  exact h.step hfresh hstep

lemma Agreed.ends (h : Agreed cfg past s) {c : Child} (hc : c ∈ s.parent.children)
    (hserving : c.phase = .serving) (uninitialisedAck : ClientAck) (alarmBlocked : Bool)
    (channel : Discipline) :
    s.Ends cfg c (requestedTransfer cfg c.client uninitialisedAck alarmBlocked channel) := by
  have hexchanged := h.rooted.served c hc hserving
  have hrecv : HandshakeEvent.recv c.client c.pid ∈ past := by
    obtain ⟨sent, number, hsub⟩ := hexchanged
    exact hsub.subset (by simp [Handshake.exchange])
  obtain ⟨hfile, hlength⟩ := h.opened c hc
  have hlt := cfg.file_lt c.client
  refine ⟨?_, hfile, ?_, h.served c hc hserving, ?_⟩
  · exact h.rooted.connected (c.client, c.pid)
      (List.mem_flatMap.mpr ⟨_, hrecv, List.mem_singleton_self _⟩)
  · rw [hlength]
    exact toSigned_toUnsigned ⟨by omega, by omega⟩
  · rw [clientConfig, h.received _ _ hrecv]
    rfl

lemma Agreed.eq_of_serving (h : Agreed cfg past s) {c d : Child} (hc : c ∈ s.parent.children)
    (hd : d ∈ s.parent.children) (hcs : c.phase = .serving) (hds : d.phase = .serving)
    (hclient : d.client = c.client) : d = c := by
  have hanswers : ∀ b ∈ s.parent.children, b.phase = .serving →
      (b.client, b.pid) ∈ past.flatMap HandshakeEvent.answers := by
    intro b hb hbs
    obtain ⟨sent, number, hsub⟩ := h.rooted.served b hb hbs
    exact List.mem_flatMap.mpr ⟨.recv b.client b.pid, hsub.subset (by simp [Handshake.exchange]),
      List.mem_singleton_self _⟩
  have hsame := List.inj_on_of_nodup_map h.rooted.once (hanswers d hd hds) (hanswers c hc hcs)
    hclient
  exact List.inj_on_of_nodup_map h.rooted.pids hd hc (congrArg Prod.snd hsame)

/-- However the datagrams of the handshake are lost, repeated and reordered, and however many
clients there are: a child that serves and the client it was forked for are the two ends of the
transfer of the file that the client has asked for, and no other child serves that client.  What
the client has written in any run of the transfer is the beginning of what arrives of that
file. -/
theorem delivers_requested_file {es : List ServiceEvent} {c : Child}
    (hfresh : (machine cfg).Along (fun s e t => Handshake.Fresh s.control e.control t.control)
      start es)
    (hrun : (machine cfg).run start es = some s) (hc : c ∈ s.parent.children)
    (hserving : c.phase = .serving) (uninitialisedAck : ClientAck) (alarmBlocked : Bool)
    (channel : Discipline) :
    let T := requestedTransfer cfg c.client uninitialisedAck alarmBlocked channel
    s.Ends cfg c T ∧
      (∀ d ∈ s.parent.children, d.phase = .serving → d.client = c.client → d = c) ∧
      ∀ now toClient toServer fs x,
        (Transfer.rawMachine T).run (Transfer.startAmid T now toClient toServer) fs = some x →
        ∃ n : ℕ, x.client.count = n ∧
          (n ≤ T.totalNumSegments →
            x.client.written = (arriving (cfg.files (cfg.fileName c.client))).take (n * 508)) ∧
          (T.totalNumSegments ≤ n →
            arriving (cfg.files (cfg.fileName c.client)) <+: x.client.written) := by
  have h := agreed_of_run hfresh hrun
  refine ⟨h.ends hc hserving uninitialisedAck alarmBlocked channel,
    fun d hd hds hclient => h.eq_of_serving hc hd hserving hds hclient,
    fun now toClient toServer fs x hx => ?_⟩
  obtain ⟨n, hcount, hout, -⟩ := Transfer.out_of_run_amid hx
  refine ⟨n, hcount, fun hn => hout.eq_take hn, fun hn => ?_⟩
  obtain ⟨extra, hwritten, -⟩ := hout.of_total_le hn
  rw [hwritten]
  exact List.prefix_append _ _

def twoFiles : ServiceConfig where
  files name := if name = "a" then List.replicate 600 1 else List.replicate 1500 2
  fileName client := if client.2 = 5 then "a" else "b"
  receivingWindowSize _ := 4
  serverSizeT := .bits64
  clientSizeT _ := .bits64
  file_pos client := by split_ifs <;> rw [List.length_replicate] <;> decide
  file_lt client := by split_ifs <;> rw [List.length_replicate] <;> decide
  window_pos _ := by decide
  window_lt _ := by decide

/-- The first client times out, and its request is recognised; the second overtakes it. -/
def overtaking : List ServiceEvent :=
  [⟨.start ("10.0.0.1", 5) true, "", ⟨0, 0⟩⟩, ⟨.start ("10.0.0.1", 6) true, "", ⟨0, 0⟩⟩,
    ⟨.serve ("10.0.0.1", 5) 0 (.waiting 1 true), "a", ⟨0, 0⟩⟩,
    ⟨.timeout ("10.0.0.1", 5) true, "", ⟨0, 0⟩⟩,
    ⟨.serve ("10.0.0.1", 5) 1 (.waiting 2 true), "a", ⟨0, 0⟩⟩,
    ⟨.serve ("10.0.0.1", 6) 0 (.waiting 2 true), "b", ⟨0, 0⟩⟩,
    ⟨.recv ("10.0.0.1", 6) 2, "", ⟨1500, 0⟩⟩, ⟨.recv ("10.0.0.1", 5) 1, "", ⟨600, 0⟩⟩,
    ⟨.child 2 .read, "", ⟨1500, 4⟩⟩, ⟨.child 1 .read, "", ⟨600, 4⟩⟩]

theorem delivers_requested_file_overtaking :
    ∃ s, (machine twoFiles).run start overtaking = some s ∧
      s.parent.children =
        [⟨1, ("10.0.0.1", 5), .serving⟩, ⟨2, ("10.0.0.1", 6), .serving⟩] ∧
      ∀ c ∈ s.parent.children, c.phase = .serving →
        s.Ends twoFiles c (requestedTransfer twoFiles c.client ⟨0, 0, 0⟩ true .unreliable) := by
  have hobs : ((machine twoFiles).run start overtaking).map (fun s => s.parent.children) =
      some [⟨1, ("10.0.0.1", 5), .serving⟩, ⟨2, ("10.0.0.1", 6), .serving⟩] := by decide +kernel
  obtain ⟨s, hs, hchildren⟩ := Option.map_eq_some_iff.mp hobs
  exact ⟨s, hs, hchildren, fun c hc hserving =>
    (delivers_requested_file (by decide +kernel) hs hc hserving ⟨0, 0, 0⟩ true .unreliable).1⟩

end Service

end TcpOverUdp
