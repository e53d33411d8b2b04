import TcpOverUdp.Establishment

namespace TcpOverUdp

namespace Handshake

variable {s t : Handshake} {past : List HandshakeEvent} {e : HandshakeEvent}
  {c : Child} {client : ClientAddress} {pid : ℤ}

def startsServing (s : Handshake) : HandshakeEvent → List ClientAddress
  | .child pid .read => ((s.parent.children.find? fun c => c.pid = pid).map Child.client).toList
  | _ => []

lemma startsServing_of_isLoss (h : e.isLoss = true) : s.startsServing e = [] := by
  cases e <;> first | rfl | cases h

/-- The handshake with the clients that a transfer has been started for. -/
def serving : Machine (Handshake × List ClientAddress) HandshakeEvent :=
  machine.ghost fun s e _ served => served ++ s.startsServing e

structure ServedOnce (past : List HandshakeEvent) (x : Handshake × List ClientAddress) :
    Prop where
  rooted : Rooted past x.1
  nodup : x.2.Nodup
  opened : ∀ k ∈ x.2, ∃ pid, Exchanged 4 past k pid
  settled : ∀ k ∈ x.2, x.1.phase k = .connected
  counted : ∀ c ∈ x.1.parent.children, c.phase = .serving → c.client ∈ x.2
  waiting : ∀ c ∈ x.1.parent.children, c.phase = .waiting → c.pid ∈ x.1.clientAcks →
    c.client ∉ x.2

variable {served : List ClientAddress}

lemma connected_step (hstep : s.step e = some t) {k : ClientAddress}
    (hk : s.phase k = .connected) : t.phase k = .connected := by
  cases step_moves hstep with
  | start hphase =>
    rwa [ask_phase_of_ne]
    rintro rfl
    rw [hphase] at hk
    cases hk
  | timeout hphase =>
    rwa [ask_phase_of_ne]
    rintro rfl
    rw [hphase] at hk
    cases hk
  | @recv client =>
    by_cases heq : k = client
    · exact heq ▸ Function.update_self _ _ _
    · exact (Function.update_of_ne heq _ _).trans hk
  | @recvError client =>
    by_cases heq : k = client
    · exact heq ▸ Function.update_self _ _ _
    · exact (Function.update_of_ne heq _ _).trans hk
  | serve => exact hk
  | child => exact hk
  | sigChld => exact hk
  | lose => exact hk

lemma ServedOnce.keep (h : ServedOnce past (s, served)) (hrooted : Rooted (past ++ [e]) t)
    (hstep : s.step e = some t)
    (hserving : ∀ c ∈ t.parent.children, c.phase = .serving → c.client ∈ served)
    (hwaiting : ∀ c ∈ t.parent.children, c.phase = .waiting → c.pid ∈ t.clientAcks →
      c.client ∉ served) : ServedOnce (past ++ [e]) (t, served) where
  rooted := hrooted
  nodup := h.nodup
  opened k hk := (h.opened k hk).imp fun _ hpid => hpid.concat e
  settled k hk := connected_step hstep (h.settled k hk)
  counted := hserving
  waiting := hwaiting

lemma ServedOnce.processes (h : ServedOnce past (s, served)) (hrooted : Rooted (past ++ [e]) t)
    (hstep : s.step e = some t) (hacks : t.clientAcks = s.clientAcks)
    (hchildren : ∀ c ∈ t.parent.children, (c.phase ≠ .serving ∧ c.pid ∉ s.clientAcks) ∨
      ∃ d ∈ s.parent.children, d.pid = c.pid ∧ d.client = c.client ∧
        (c.phase = .serving → d.phase = .serving) ∧ (c.phase = .waiting → d.phase = .waiting)) :
    ServedOnce (past ++ [e]) (t, served) := by
  refine h.keep hrooted hstep (fun c hc hserving => ?_) fun c hc hwaiting hpid => ?_
  · rcases hchildren c hc with ⟨hphase, -⟩ | ⟨d, hd, -, hclient, hold, -⟩
    · exact absurd hserving hphase
    · exact hclient ▸ h.counted d hd (hold hserving)
  · rw [hacks] at hpid
    rcases hchildren c hc with ⟨-, hfresh⟩ | ⟨d, hd, heq, hclient, -, hold⟩
    · exact absurd hpid hfresh
    · exact hclient ▸ h.waiting d hd (hold hwaiting) (heq.symm ▸ hpid)

lemma ServedOnce.read (h : ServedOnce past (s, served)) {p : Parent}
    (hrooted : Rooted (past ++ [.child c.pid .read]) { s with parent := p })
    (hpid : c.pid ∈ s.clientAcks) (hc : c ∈ s.parent.children) (hphase : c.phase = .waiting)
    (hp : s.parent.step (.child c.pid .read) = some p)
    (hset : p.children = setPhase c.pid .serving s.parent.children) :
    ServedOnce (past ++ [.child c.pid .read]) ({ s with parent := p }, served ++ [c.client]) := by
  have hanswered := h.rooted.answered c.pid hpid c hc rfl
  -- process numbers are distinct, so that the datagram is for this child
  have honly : ∀ d ∈ s.parent.children, d.pid = c.pid → d = c :=
    fun d hd heq => List.inj_on_of_nodup_map h.rooted.pids hd hc heq
  refine ⟨hrooted, ?_, fun k hk => ?_, fun k hk => ?_, fun d hd hserving => ?_,
    fun d hd hwaiting hdpid hmem => ?_⟩
  · rw [List.nodup_append]
    refine ⟨h.nodup, by simp, fun a ha b hb hab => h.waiting c hc hphase hpid ?_⟩
    obtain rfl := List.mem_singleton.mp hb
    exact hab ▸ ha
  · rcases List.mem_append.mp hk with hk | hk
    · exact (h.opened k hk).imp fun _ hexchanged => hexchanged.concat _
    · rw [List.mem_singleton.mp hk]
      exact ⟨c.pid, hanswered.read⟩
  · rcases List.mem_append.mp hk with hk | hk
    · exact h.settled k hk
    · rw [List.mem_singleton.mp hk]
      exact h.rooted.connected _ hanswered.answer_mem
  · rcases Parent.mem_children_step hp hd with ⟨_, _, he, -⟩ | ⟨b, hb, hbpid, hclient, hold, -⟩
    · cases he
    · rw [← hclient]
      rcases hold hserving with hold | he
      · exact List.mem_append_left _ (h.counted b hb hold)
      · obtain ⟨heq, -⟩ := ParentEvent.child.inj he
        rw [honly b hb (hbpid.trans heq.symm)]
        exact List.mem_append_right _ (List.mem_singleton_self _)
  · have hne : d.pid ≠ c.pid := by
      intro heq
      have := phase_of_mem_setPhase (hset ▸ hd) heq
      rw [hwaiting] at this
      cases this
    rcases Parent.mem_children_step hp hd with ⟨_, _, he, -⟩ | ⟨b, hb, hbpid, hclient, -, hold⟩
    · cases he
    · rw [← hbpid] at hne hdpid
      rw [← hclient] at hmem
      rcases List.mem_append.mp hmem with hmem | hmem
      · exact h.waiting b hb (hold hwaiting) hdpid hmem
      · -- a client answers one child only
        have hother := (h.rooted.answered b.pid hdpid b hb rfl).answer_mem
        have hsame := List.inj_on_of_nodup_map h.rooted.once hother hanswered.answer_mem
          (List.mem_singleton.mp hmem)
        exact hne (congrArg Prod.snd hsame)

lemma startsServing_child {pid : ℤ} {e : ChildEvent} {p : Parent}
    (hp : s.parent.step (.child pid e) = some p) :
    ∃ c ∈ s.parent.children, c.pid = pid ∧ ∃ phase, c.phase.next e = some phase ∧
      p.children = setPhase pid phase s.parent.children ∧
      s.startsServing (.child pid e) = if e = .read then [c.client] else [] := by
  obtain ⟨c, hc, hp⟩ := Option.bind_eq_some_iff.mp hp
  obtain ⟨phase, hnext, rfl⟩ := Option.map_eq_some_iff.mp hp
  refine ⟨c, List.mem_of_find?_eq_some hc, by simpa using List.find?_some hc, phase, hnext, rfl, ?_⟩
  cases e with
  | read => simp [startsServing, hc]
  | timeout => rfl
  | exit => rfl

theorem ServedOnce.step (h : ServedOnce past (s, served)) (hfresh : Fresh s e t)
    (hstep : s.step e = some t) : ServedOnce (past ++ [e]) (t, served ++ s.startsServing e) := by
  have hrooted := h.rooted.move hfresh (step_moves hstep)
  cases step_moves hstep with
  | @start client sent =>
    simp only [startsServing, List.append_nil]
    exact h.processes hrooted hstep (ask_clientAcks ..) fun c hc =>
      Or.inr ⟨c, parent_ask s client 0 sent ▸ hc, rfl, rfl, id, id⟩
  | @timeout client sent n =>
    simp only [startsServing, List.append_nil]
    exact h.processes hrooted hstep (ask_clientAcks ..) fun c hc =>
      Or.inr ⟨c, parent_ask s client (n + 1) sent ▸ hc, rfl, rfl, id, id⟩
  | @recv client pid n hphase hack =>
    simp only [startsServing, List.append_nil]
    refine h.keep hrooted hstep h.counted fun c hc hwaiting hpid hserved => ?_
    rcases List.mem_append.mp hpid with hpid | hpid
    · exact h.waiting c hc hwaiting hpid hserved
    · -- a client that is served has left its request loop
      have hclient := h.rooted.addressed _ hack c hc (List.mem_singleton.mp hpid)
      have hconnected := h.settled c.client hserved
      rw [hclient, hphase] at hconnected
      cases hconnected
  | @recvError client pid n hphase =>
    simp only [startsServing, List.append_nil]
    refine h.keep hrooted hstep h.counted fun c hc hwaiting hpid => ?_
    rcases List.mem_append.mp hpid with hpid | hpid
    · exact h.waiting c hc hwaiting hpid
    · exact absurd (List.mem_singleton.mp hpid ▸ List.mem_map_of_mem hc) hfresh
  | serve hrequest hp =>
    simp only [startsServing, List.append_nil]
    refine h.processes hrooted hstep rfl fun c hc => ?_
    rcases Parent.mem_children_step hp hc with ⟨k, f, he, hfork⟩ | ⟨d, hd, hpid, hclient, hold⟩
    · obtain ⟨rfl, rfl⟩ := ParentEvent.request.inj he
      exact Or.inl ⟨ForkResult.child_ne_serving hfork, (hfresh c hfork).2⟩
    · exact Or.inr ⟨d, hd, hpid, hclient,
        fun hserving => (hold.1 hserving).resolve_right (by simp), hold.2⟩
  | @child pid e p hread hp =>
    obtain ⟨c, hc, rfl, phase, hnext, hset, hstarts⟩ := startsServing_child hp
    rw [hstarts]
    -- a child's timeout and exit start nothing
    split_ifs with he
    · subst he
      obtain ⟨hwaiting, rfl⟩ := ChildPhase.of_read hnext
      exact h.read hrooted (hread rfl) hc hwaiting hp hset
    · rw [List.append_nil]
      refine h.processes hrooted hstep rfl fun d hd => ?_
      rcases Parent.mem_children_step hp hd with ⟨_, _, hno, -⟩ | ⟨b, hb, hpid, hclient, hold⟩
      · cases hno
      · exact Or.inr ⟨b, hb, hpid, hclient, fun hserving => (hold.1 hserving).resolve_right
          fun hno => he (ParentEvent.child.inj hno).2, hold.2⟩
  | sigChld hp =>
    simp only [startsServing, List.append_nil]
    refine h.processes hrooted hstep rfl fun c hc => ?_
    rcases Parent.mem_children_step hp hc with ⟨_, _, hno, -⟩ | ⟨d, hd, hpid, hclient, hold⟩
    · cases hno
    · exact Or.inr ⟨d, hd, hpid, hclient,
        fun hserving => (hold.1 hserving).resolve_right (by simp), hold.2⟩
  | lose hloss hrequests hserverAcks hclientAcks =>
    rw [startsServing_of_isLoss hloss, List.append_nil]
    exact h.keep hrooted hstep h.counted fun c hc hwaiting hpid =>
      h.waiting c hc hwaiting (hclientAcks hpid)

lemma servedOnce_start : ServedOnce [] (start, []) where
  rooted := rooted_start
  nodup := List.nodup_nil
  opened k hk := by cases hk
  settled k hk := by cases hk
  counted c hc := by cases hc
  waiting c hc := by cases hc

/-- However the datagrams are lost, repeated and reordered: a transfer is started at most once
for each client, by a child that was forked for its request and that the client has answered
after reading its `ServerAck`. -/
theorem served_after_exchange {x : Handshake × List ClientAddress} {es : List HandshakeEvent}
    (hfresh : serving.Along (fun x e y => Fresh x.1 e y.1) (start, []) es)
    (hrun : serving.run (start, []) es = some x) :
    x.2.Nodup ∧
      (∀ client ∈ x.2, x.1.phase client = .connected ∧
        ∃ pid sent number, (exchange client pid sent number).Sublist es) ∧
      ∀ c ∈ x.1.parent.children, c.phase = .serving → c.client ∈ x.2 ∧
        ∃ sent number, (exchange c.client c.pid sent number).Sublist es := by
  have h : ServedOnce es x := by
    refine Machine.run_history_along (M := serving) (P := ServedOnce)
      (fun past x e y h hfresh hstep => ?_) servedOnce_start hfresh hrun
    obtain ⟨hmove, hserved⟩ := Machine.ghost_step.mp hstep
    have hnext := ServedOnce.step h hfresh hmove
    rw [← hserved] at hnext
    exact hnext
  refine ⟨h.nodup, fun client hclient => ⟨h.settled client hclient, h.opened client hclient⟩,
    fun c hc hserving => ⟨h.counted c hc hserving, h.rooted.served c hc hserving⟩⟩

/-- The twenty-first client is forgotten, asks again and gets two children; it answers the
second, whose datagram comes before the first gives up. -/
def twoChildren : List HandshakeEvent :=
  ((List.range 21).flatMap fun i : ℕ =>
      [.start ("10.0.0.1", i) true, .serve ("10.0.0.1", i) 0 (.waiting i true)]) ++
    [.timeout ("10.0.0.1", 20) true, .serve ("10.0.0.1", 20) 1 (.waiting 21 true),
      .recv ("10.0.0.1", 20) 21, .child 21 .read, .child 20 .timeout]

theorem served_after_exchange_twoChildren :
    ∃ x, serving.run (start, []) twoChildren = some x ∧ x.2 = [("10.0.0.1", 20)] ∧
      x.2.Nodup ∧ ∀ c ∈ x.1.parent.children, c.phase = .serving →
        ∃ sent number, (exchange c.client c.pid sent number).Sublist twoChildren := by
  have hobs : (serving.run (start, []) twoChildren).map Prod.snd = some [("10.0.0.1", 20)] := by
    decide +kernel
  obtain ⟨x, hx, hserved⟩ := Option.map_eq_some_iff.mp hobs
  obtain ⟨hnodup, -, hchildren⟩ := served_after_exchange (by decide +kernel) hx
  exact ⟨x, hx, hserved, hnodup, fun c hc hserving => (hchildren c hc hserving).2⟩

end Handshake

end TcpOverUdp
