import TcpOverUdp.Lib.BoundedMemory

namespace TcpOverUdp

/-- The address of a client: what `inet_ntop` prints of its IP address, and `sin_port`. -/
abbrev ClientAddress := String × ℤ

/-- `struct clientRequestInfo`, without the members that nothing reads. -/
structure ClientInfo where
  clientIp : String
  clientPort : ℤ
  inUse : Bool
  deriving DecidableEq, Repr

def ClientInfo.address (c : ClientInfo) : ClientAddress := (c.clientIp, c.clientPort)

/-- `cInfo`: twenty slots, of which a client gets the first free one. -/
structure KnownClients where
  cInfo : List ClientInfo
  length_cInfo : cInfo.length = 20

namespace KnownClients

def empty : KnownClients := ⟨List.replicate 20 ⟨"", 0, false⟩, List.length_replicate⟩

/-- The test that `chkRequestRetransmitted` and `RemoveClientFromKnownClientList` make of a
slot. -/
def isClient (ipOfClient : String) (portNo : ℤ) (c : ClientInfo) : Bool :=
  c.inUse && (c.clientIp == ipOfClient) && (portNo == c.clientPort)

def chkRequestRetransmitted (t : KnownClients) (ipOfClient : String) (portNo : ℤ) : Bool :=
  t.cInfo.any (isClient ipOfClient portNo)

def addLoop (ipOfClient : String) (portNo : ℤ) : List ClientInfo → List ClientInfo
  | [] => []
  | c :: cInfo =>
    if c.inUse then c :: addLoop ipOfClient portNo cInfo
    else ⟨ipOfClient, portNo, true⟩ :: cInfo

lemma length_addLoop (ipOfClient : String) (portNo : ℤ) (cInfo : List ClientInfo) :
    (addLoop ipOfClient portNo cInfo).length = cInfo.length := by
  induction cInfo with
  | nil => rfl
  | cons c cInfo ih =>
    unfold addLoop
    split_ifs <;> simp [ih]

def addClientToKnownClientList (t : KnownClients) (ipOfClient : String) (portNo : ℤ) :
    KnownClients where
  cInfo := addLoop ipOfClient portNo t.cInfo
  length_cInfo := (length_addLoop ipOfClient portNo t.cInfo).trans t.length_cInfo

def removeClientFromKnownClientList (t : KnownClients) (ipOfClient : String) (portNo : ℤ) :
    KnownClients where
  cInfo := t.cInfo.map fun c => if isClient ipOfClient portNo c then ⟨"", 0, false⟩ else c
  length_cInfo := by rw [List.length_map, t.length_cInfo]

def clientsOf (cInfo : List ClientInfo) : List ClientAddress :=
  (cInfo.filter ClientInfo.inUse).map ClientInfo.address

def clients (t : KnownClients) : List ClientAddress := clientsOf t.cInfo

variable {t : KnownClients} {client : ClientAddress}

lemma isClient_iff {c : ClientInfo} :
    isClient client.1 client.2 c = true ↔ c.inUse = true ∧ c.address = client := by
  simp only [isClient, Bool.and_eq_true, beq_iff_eq, and_assoc, ClientInfo.address, Prod.ext_iff,
    eq_comm (a := client.2)]

lemma chk_iff : t.chkRequestRetransmitted client.1 client.2 = true ↔ client ∈ t.clients := by
  simp only [chkRequestRetransmitted, List.any_eq_true, isClient_iff, clients, clientsOf,
    List.mem_map, List.mem_filter, and_assoc]

lemma clients_empty : empty.clients = [] := rfl

lemma length_clientsOf_le (cInfo : List ClientInfo) : (clientsOf cInfo).length ≤ cInfo.length := by
  simpa [clientsOf] using List.length_filter_le ClientInfo.inUse cInfo

lemma clientsOf_addLoop (client : ClientAddress) (cInfo : List ClientInfo) :
    if (clientsOf cInfo).length < cInfo.length then
      (clientsOf (addLoop client.1 client.2 cInfo)).Perm (client :: clientsOf cInfo)
    else addLoop client.1 client.2 cInfo = cInfo := by
  induction cInfo with
  | nil => rfl
  | cons c cInfo ih =>
    cases huse : c.inUse with
    | false =>
      -- the first free slot
      have hle := length_clientsOf_le cInfo
      have hsame : clientsOf (c :: cInfo) = clientsOf cInfo := by simp [clientsOf, huse]
      rw [if_pos (by rw [hsame, List.length_cons]; omega), hsame, addLoop, huse]
      simp [clientsOf, ClientInfo.address]
    | true =>
      have hcons : clientsOf (c :: cInfo) = c.address :: clientsOf cInfo := by
        simp [clientsOf, huse]
      have hadd : addLoop client.1 client.2 (c :: cInfo) =
          c :: addLoop client.1 client.2 cInfo := by
        simp [addLoop, huse]
      have hcons' : clientsOf (c :: addLoop client.1 client.2 cInfo) =
          c.address :: clientsOf (addLoop client.1 client.2 cInfo) := by
        simp [clientsOf, huse]
      rw [hadd, hcons, hcons']
      simp only [List.length_cons, Nat.add_lt_add_iff_right]
      split_ifs at ih ⊢ with hroom
      · exact (ih.cons _).trans (List.Perm.swap _ _ _)
      · rw [ih]

theorem clients_remove (t : KnownClients) (client : ClientAddress) :
    (t.removeClientFromKnownClientList client.1 client.2).clients =
      t.clients.filter fun c => c ≠ client := by
  simp only [clients, removeClientFromKnownClientList]
  induction t.cInfo with
  | nil => rfl
  | cons c cInfo ih =>
    cases huse : c.inUse <;> by_cases hc : c.address = client <;>
      simp_all [clientsOf, isClient_iff]

def Represents (t : KnownClients) (m : BoundedMemory ClientAddress 20) : Prop :=
  t.clients.Perm m.keys

variable {m : BoundedMemory ClientAddress 20}

lemma represents_empty : Represents empty BoundedMemory.empty := List.Perm.nil

lemma Represents.chk_iff (h : Represents t m) :
    t.chkRequestRetransmitted client.1 client.2 = true ↔ client ∈ m.keys := by
  rw [KnownClients.chk_iff, h.mem_iff]

theorem Represents.add (h : Represents t m)
    (hnew : t.chkRequestRetransmitted client.1 client.2 = false) :
    Represents (t.addClientToKnownClientList client.1 client.2) (m.insert client) := by
  have hfresh : client ∉ m.keys := by
    rw [← h.chk_iff, hnew]
    simp
  have hlen : (clientsOf t.cInfo).length = m.keys.length := h.length_eq
  have hadd := clientsOf_addLoop client t.cInfo
  rw [hlen, t.length_cInfo] at hadd
  split_ifs at hadd with hroom
  · rw [Represents, BoundedMemory.insert_keys_of_room hfresh hroom]
    exact hadd.trans (h.cons client)
  · rw [BoundedMemory.insert_of_full hroom]
    show (clientsOf (addLoop client.1 client.2 t.cInfo)).Perm m.keys
    rw [hadd]
    exact h

end KnownClients

end TcpOverUdp
