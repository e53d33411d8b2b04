import TcpOverUdp.KnownClients
import TcpOverUdp.Lib.Machine

namespace TcpOverUdp

/-- Where a child stands: in the `select` that waits for the client's acknowledgement of its
port, past it, or terminated and not reaped yet. -/
inductive ChildPhase
  | waiting
  | serving
  | terminated
  deriving DecidableEq, Repr

structure Child where
  pid : ℤ
  client : ClientAddress
  phase : ChildPhase
  deriving DecidableEq, Repr

/-- What becomes of a `fork`: it fails, the child exits before it has sent its `ServerAck`, or
the child reaches its `select`, after a `sendto` that may have failed. -/
inductive ForkResult
  | failed
  | exited (pid : ℤ)
  | waiting (pid : ℤ) (sent : Bool)
  deriving DecidableEq, Repr

def ForkResult.child (client : ClientAddress) : ForkResult → Option Child
  | .failed => none
  | .exited pid => some ⟨pid, client, .terminated⟩
  | .waiting pid _ => some ⟨pid, client, .waiting⟩

inductive ChildEvent
  /-- the `select` for the client's acknowledgement times out -/
  | timeout
  /-- a datagram comes, and the transfer starts -/
  | read
  /-- the transfer ends, or the process does -/
  | exit
  deriving DecidableEq, Repr

def ChildPhase.next : ChildPhase → ChildEvent → Option ChildPhase
  | .waiting, .timeout => some .terminated
  | .waiting, .read => some .serving
  | .waiting, .exit => some .terminated
  | .serving, .exit => some .terminated
  | _, _ => none

structure Parent where
  cInfo : KnownClients
  children : List Child

inductive ParentEvent
  /-- a file request is read from `client` -/
  | request (client : ClientAddress) (fork : ForkResult)
  | child (pid : ℤ) (e : ChildEvent)
  /-- `sig_chld`, which reaps every terminated child -/
  | sigChld

def setPhase (pid : ℤ) (phase : ChildPhase) (children : List Child) : List Child :=
  children.map fun c => if c.pid = pid then { c with phase := phase } else c

def runningOf (children : List Child) : List ClientAddress :=
  (children.filter fun c => c.phase ≠ .terminated).map Child.client

namespace Parent

def start : Parent := ⟨.empty, []⟩

/-- A request that has been read.  The number of a new process is not in use. -/
def request (p : Parent) (client : ClientAddress) (fork : ForkResult) : Option Parent :=
  if p.cInfo.chkRequestRetransmitted client.1 client.2 then some p
  else
    let cInfo := p.cInfo.addClientToKnownClientList client.1 client.2
    match fork.child client with
    | none => some { p with cInfo := cInfo }
    | some c =>
      if c.pid ∈ p.children.map Child.pid then none
      else some { cInfo := cInfo, children := p.children ++ [c] }

def step (p : Parent) : ParentEvent → Option Parent
  | .request client fork => p.request client fork
  | .child pid e =>
    (p.children.find? fun c => c.pid = pid).bind fun c =>
      (c.phase.next e).map fun phase => { p with children := setPhase pid phase p.children }
  | .sigChld => some { p with children := p.children.filter fun c => c.phase ≠ .terminated }

def machine : Machine Parent ParentEvent := ⟨step⟩

def running (p : Parent) : List ClientAddress := runningOf p.children

inductive Moves (p : Parent) : ParentEvent → Parent → Prop
  | recognised {client fork} (hknown : client ∈ p.cInfo.clients) :
    Moves p (.request client fork) p
  | unforked {client fork} (hnew : client ∉ p.cInfo.clients) (hfork : fork.child client = none) :
    Moves p (.request client fork)
      { p with cInfo := p.cInfo.addClientToKnownClientList client.1 client.2 }
  | forked {client fork c} (hnew : client ∉ p.cInfo.clients) (hfork : fork.child client = some c)
      (hpid : c.pid ∉ p.children.map Child.pid) :
    Moves p (.request client fork)
      { cInfo := p.cInfo.addClientToKnownClientList client.1 client.2
        children := p.children ++ [c] }
  | child {c e phase} (hc : c ∈ p.children) (hnext : c.phase.next e = some phase) :
    Moves p (.child c.pid e) { p with children := setPhase c.pid phase p.children }
  | sigChld :
    Moves p .sigChld { p with children := p.children.filter fun c => c.phase ≠ .terminated }

theorem step_moves {p q : Parent} {e : ParentEvent} (h : p.step e = some q) : Moves p e q := by
  cases e with
  | request client fork =>
    simp only [step, request, KnownClients.chk_iff] at h
    split_ifs at h with hknown
    · obtain rfl := Option.some.inj h
      exact .recognised hknown
    · split at h
      · rename_i hfork
        obtain rfl := Option.some.inj h
        exact .unforked hknown hfork
      · rename_i c hfork
        split_ifs at h with hpid
        obtain rfl := Option.some.inj h
        exact .forked hknown hfork hpid
  | child pid e =>
    obtain ⟨c, hc, h⟩ := Option.bind_eq_some_iff.mp h
    obtain ⟨phase, hnext, rfl⟩ := Option.map_eq_some_iff.mp h
    obtain rfl : c.pid = pid := by simpa using List.find?_some hc
    exact .child (List.mem_of_find?_eq_some hc) hnext
  | sigChld =>
    obtain rfl := Option.some.inj h
    exact .sigChld

end Parent

variable {children : List Child} {c : Child} {phase : ChildPhase} {e : ChildEvent}

lemma ForkResult.child_client {client : ClientAddress} {fork : ForkResult}
    (h : fork.child client = some c) : c.client = client := by
  cases fork with
  | failed => cases h
  | exited pid =>
    obtain rfl := Option.some.inj h
    rfl
  | waiting pid sent =>
    obtain rfl := Option.some.inj h
    rfl

lemma runningOf_concat (children : List Child) (c : Child) :
    runningOf (children ++ [c]) =
      runningOf children ++ if c.phase = .terminated then [] else [c.client] := by
  by_cases hc : c.phase = .terminated <;> simp [runningOf, hc]

@[simp] lemma runningOf_reaped (children : List Child) :
    runningOf (children.filter fun c => c.phase ≠ .terminated) = runningOf children := by
  simp [runningOf]

lemma map_pid_setPhase (pid : ℤ) (phase : ChildPhase) (children : List Child) :
    (setPhase pid phase children).map Child.pid = children.map Child.pid := by
  simp only [setPhase, List.map_map]
  apply List.map_congr_left
  intro c _
  simp only [Function.comp]
  split <;> rfl

lemma ChildPhase.ne_terminated (h : c.phase.next e = some phase) : c.phase ≠ .terminated := by
  intro hc
  rw [hc] at h
  cases h

lemma setPhase_of_not_mem {pid : ℤ} (h : pid ∉ children.map Child.pid) :
    setPhase pid phase children = children := by
  refine (List.map_congr_left fun d hd => ?_).trans (List.map_id children)
  rw [if_neg, id]
  rintro rfl
  exact h (List.mem_map_of_mem hd)

lemma exists_setPhase (hnodup : (children.map Child.pid).Nodup) (hc : c ∈ children) :
    ∃ before after, children = before ++ c :: after ∧
      ∀ phase, setPhase c.pid phase children = before ++ { c with phase := phase } :: after := by
  obtain ⟨before, after, rfl⟩ := List.append_of_mem hc
  refine ⟨before, after, rfl, fun phase => ?_⟩
  simp only [List.map_append, List.map_cons, List.nodup_append, List.nodup_cons] at hnodup
  obtain ⟨-, ⟨hafter, -⟩, hbefore⟩ := hnodup
  have hsplit : setPhase c.pid phase (before ++ c :: after) = setPhase c.pid phase before ++
      { c with phase := phase } :: setPhase c.pid phase after := by simp [setPhase]
  rw [hsplit, setPhase_of_not_mem hafter, setPhase_of_not_mem]
  intro hmem
  exact hbefore _ hmem c.pid (by simp) rfl

lemma runningOf_terminated (hnodup : (children.map Child.pid).Nodup) (hc : c ∈ children)
    (hrun : c.phase ≠ .terminated) :
    (runningOf children).Perm (c.client :: runningOf (setPhase c.pid .terminated children)) := by
  obtain ⟨before, after, hsplit, hset⟩ := exists_setPhase hnodup hc
  rw [hset, hsplit]
  simp [runningOf, hrun, List.perm_middle]

lemma runningOf_setPhase (hnodup : (children.map Child.pid).Nodup) (hc : c ∈ children)
    (hrun : c.phase ≠ .terminated) (hphase : phase ≠ .terminated) :
    runningOf (setPhase c.pid phase children) = runningOf children := by
  obtain ⟨before, after, hsplit, hset⟩ := exists_setPhase hnodup hc
  rw [hset, hsplit]
  simp [runningOf, hrun, hphase]

lemma runningOf_next (hnodup : (children.map Child.pid).Nodup) (hc : c ∈ children)
    (hnext : c.phase.next e = some phase) :
    (phase = .terminated ∧
        (runningOf children).Perm (c.client :: runningOf (setPhase c.pid phase children))) ∨
      (phase ≠ .terminated ∧ runningOf (setPhase c.pid phase children) = runningOf children) := by
  have hrun := ChildPhase.ne_terminated hnext
  by_cases hphase : phase = .terminated
  · subst hphase
    exact Or.inl ⟨rfl, runningOf_terminated hnodup hc hrun⟩
  · exact Or.inr ⟨hphase, runningOf_setPhase hnodup hc hrun hphase⟩

end TcpOverUdp
