import TcpOverUdp.KnownClients
import TcpOverUdp.Lib.BoundedMap
import TcpOverUdp.Lib.Machine

namespace TcpOverUdp

structure ClientRequestInfo extends ClientInfo where
  fileLength : ℤ
  pid : ℤ
  deriving DecidableEq, Repr

def ClientRequestInfo.zero : ClientRequestInfo := ⟨⟨"", 0, false⟩, 0, 0⟩

structure ClientTable where
  cInfo : List ClientRequestInfo
  length_cInfo : cInfo.length = 20

/-- The calls of the functions that read or change `cInfo`. -/
inductive TableCall
  | chk (client : ClientAddress)
  | add (client : ClientAddress)
  | remove (client : ClientAddress)
  | addFileLength (client : ClientAddress) (fileLength : ℤ)
  | addChildPid (client : ClientAddress) (pid : ℤ)

/-- What a call is for: `cInfo` is a map from clients to file lengths and process numbers. -/
def TableCall.apply (m : BoundedMap ClientAddress (ℤ × ℤ) 20) :
    TableCall → BoundedMap ClientAddress (ℤ × ℤ) 20
  | .chk _ => m
  | .add client => m.insert client (0, 0)
  | .remove client => m.erase client
  | .addFileLength client n => m.modify client fun v => (n, v.2)
  | .addChildPid client pid => m.modify client fun v => (v.1, pid)

namespace ClientTable

def empty : ClientTable := ⟨List.replicate 20 .zero, List.length_replicate⟩

def chkRequestRetransmitted (t : ClientTable) (ipOfClient : String) (portNo : ℤ) : Bool :=
  t.cInfo.any fun c => KnownClients.isClient ipOfClient portNo c.toClientInfo

/-- The loop of `AddClientToKnownClientList`, which sets three members of the first free slot. -/
def addLoop (ipOfClient : String) (portNo : ℤ) : List ClientRequestInfo → List ClientRequestInfo
  | [] => []
  | c :: cInfo =>
    if c.inUse then c :: addLoop ipOfClient portNo cInfo
    else { c with clientIp := ipOfClient, clientPort := portNo, inUse := true } :: cInfo

lemma length_addLoop (ipOfClient : String) (portNo : ℤ) (cInfo : List ClientRequestInfo) :
    (addLoop ipOfClient portNo cInfo).length = cInfo.length := by
  induction cInfo with
  | nil => rfl
  | cons c cInfo ih =>
    unfold addLoop
    split_ifs <;> simp [ih]

def addClientToKnownClientList (t : ClientTable) (ipOfClient : String) (portNo : ℤ) :
    ClientTable where
  cInfo := addLoop ipOfClient portNo t.cInfo
  length_cInfo := (length_addLoop ipOfClient portNo t.cInfo).trans t.length_cInfo

def forClient (t : ClientTable) (ipOfClient : String) (portNo : ℤ)
    (f : ClientRequestInfo → ClientRequestInfo) : ClientTable where
  cInfo := t.cInfo.map fun c =>
    if KnownClients.isClient ipOfClient portNo c.toClientInfo then f c else c
  length_cInfo := by rw [List.length_map, t.length_cInfo]

def removeClientFromKnownClientList (t : ClientTable) (ipOfClient : String) (portNo : ℤ) :
    ClientTable :=
  t.forClient ipOfClient portNo fun _ => .zero

def addFileLengthToKnownClientList (t : ClientTable) (ipOfClient : String) (portNo : ℤ)
    (fileLength : ℤ) : ClientTable :=
  t.forClient ipOfClient portNo fun c => { c with fileLength := fileLength }

def addChildPidToKnownClientList (t : ClientTable) (ipOfClient : String) (portNo : ℤ) (pid : ℤ) :
    ClientTable :=
  t.forClient ipOfClient portNo fun c => { c with pid := pid }

/-- A call.  `strcpy` needs an address that fits into the sixteen bytes of `clientIp`, and a
client is added only when `chkRequestRetransmitted` has not found it. -/
def step (t : ClientTable) : TableCall → Option ClientTable
  | .chk _ => some t
  | .add (ip, port) =>
    if ip.length < 16 ∧ t.chkRequestRetransmitted ip port = false then
      some (t.addClientToKnownClientList ip port)
    else none
  | .remove (ip, port) => some (t.removeClientFromKnownClientList ip port)
  | .addFileLength (ip, port) n => some (t.addFileLengthToKnownClientList ip port n)
  | .addChildPid (ip, port) pid => some (t.addChildPidToKnownClientList ip port pid)

def machine : Machine ClientTable TableCall := ⟨step⟩

def known (t : ClientTable) : KnownClients where
  cInfo := t.cInfo.map ClientRequestInfo.toClientInfo
  length_cInfo := by rw [List.length_map, t.length_cInfo]

variable {t u : ClientTable} {client : ClientAddress}

lemma chk_known : t.known.chkRequestRetransmitted client.1 client.2 =
    t.chkRequestRetransmitted client.1 client.2 := by
  simp [KnownClients.chkRequestRetransmitted, chkRequestRetransmitted, known, List.any_map,
    Function.comp_def]

lemma known_add : (t.addClientToKnownClientList client.1 client.2).known =
    t.known.addClientToKnownClientList client.1 client.2 := by
  simp only [known, addClientToKnownClientList, KnownClients.addClientToKnownClientList,
    KnownClients.mk.injEq]
  induction t.cInfo with
  | nil => rfl
  | cons c cInfo ih =>
    unfold addLoop KnownClients.addLoop
    split_ifs <;> simp_all

lemma known_forClient {f : ClientRequestInfo → ClientRequestInfo}
    (hf : ∀ c, (f c).toClientInfo = c.toClientInfo) :
    (t.forClient client.1 client.2 f).known = t.known := by
  simp only [known, forClient, List.map_map, KnownClients.mk.injEq]
  apply List.map_congr_left
  intro c _
  simp only [Function.comp_apply]
  split_ifs
  · exact hf c
  · rfl

lemma known_remove : (t.removeClientFromKnownClientList client.1 client.2).known =
    t.known.removeClientFromKnownClientList client.1 client.2 := by
  simp only [known, removeClientFromKnownClientList, forClient,
    KnownClients.removeClientFromKnownClientList, List.map_map, KnownClients.mk.injEq]
  apply List.map_congr_left
  intro c _
  simp only [Function.comp_apply]
  split_ifs <;> rfl

def Holds (c : ClientRequestInfo) (k : ClientAddress) (v : ℤ × ℤ) : Prop :=
  c.inUse = true ∧ c.address = k ∧ (c.fileLength, c.pid) = v

/-- The table holds what the map `m` does, each client in one slot, and its free slots are
cleared. -/
structure Represents (t : ClientTable) (m : BoundedMap ClientAddress (ℤ × ℤ) 20) : Prop where
  nodup : t.known.clients.Nodup
  lookup : ∀ k v, m.lookup k = some v ↔ ∃ c ∈ t.cInfo, Holds c k v
  cleared : ∀ c ∈ t.cInfo, c.inUse = false → (c.fileLength, c.pid) = (0, 0)

variable {m : BoundedMap ClientAddress (ℤ × ℤ) 20}

lemma mem_known_clients {k : ClientAddress} :
    k ∈ t.known.clients ↔ ∃ c ∈ t.cInfo, c.inUse = true ∧ c.address = k := by
  simp [KnownClients.clients, KnownClients.clientsOf, known, and_assoc]

lemma Represents.mem_keys (h : Represents t m) {k : ClientAddress} :
    k ∈ m.keys ↔ k ∈ t.known.clients := by
  rw [m.mem_keys, Option.isSome_iff_exists, mem_known_clients]
  simp only [h.lookup]
  constructor
  · rintro ⟨v, c, hc, huse, hk, -⟩
    exact ⟨c, hc, huse, hk⟩
  · rintro ⟨c, hc, huse, hk⟩
    exact ⟨_, c, hc, huse, hk, rfl⟩

lemma Represents.card (h : Represents t m) : m.keys.card = t.known.clients.length := by
  have hkeys : m.keys = t.known.clients.toFinset := by
    ext k
    rw [h.mem_keys, List.mem_toFinset]
  rw [hkeys, List.toFinset_card_of_nodup h.nodup]

lemma Represents.chk_iff (h : Represents t m) :
    t.chkRequestRetransmitted client.1 client.2 = true ↔ client ∈ m.keys := by
  rw [← chk_known, KnownClients.chk_iff, h.mem_keys]

lemma represents_empty : Represents empty BoundedMap.empty where
  nodup := List.nodup_nil
  lookup := by
    intro k v
    simp [BoundedMap.empty, empty, Holds, ClientRequestInfo.zero]
  cleared := by simp [empty, ClientRequestInfo.zero]

lemma Represents.room_iff (h : Represents t m) :
    m.keys.card < 20 ↔ ∃ c ∈ t.cInfo, c.inUse = false := by
  have hlen := t.known.length_cInfo
  rw [h.card, KnownClients.clients, KnownClients.clientsOf, List.length_map, ← hlen,
    List.length_filter_lt_length_iff_exists]
  simp [known]

lemma addLoop_cases (ip : String) (port : ℤ) (cInfo : List ClientRequestInfo) :
    (∃ before c after, cInfo = before ++ c :: after ∧ c.inUse = false ∧
        addLoop ip port cInfo =
          before ++ { c with clientIp := ip, clientPort := port, inUse := true } :: after) ∨
      (∀ c ∈ cInfo, c.inUse = true) ∧ addLoop ip port cInfo = cInfo := by
  induction cInfo with
  | nil => exact Or.inr ⟨by simp, rfl⟩
  | cons c cInfo ih =>
    unfold addLoop
    split_ifs with huse
    · rcases ih with ⟨before, d, after, heq, hd, hadd⟩ | ⟨hall, hadd⟩
      · exact Or.inl ⟨c :: before, d, after, by rw [heq]; rfl, hd, by rw [hadd]; rfl⟩
      · exact Or.inr ⟨List.forall_mem_cons.mpr ⟨huse, hall⟩, by rw [hadd]⟩
    · exact Or.inl ⟨[], c, cInfo, rfl, by simpa using huse, rfl⟩

/-- A client that is not recognised goes in with cleared values, if there is room. -/
theorem Represents.add (h : Represents t m)
    (hnew : t.chkRequestRetransmitted client.1 client.2 = false) :
    Represents (t.addClientToKnownClientList client.1 client.2) (m.insert client (0, 0)) := by
  have hfresh : client ∉ m.keys := by
    rw [← h.chk_iff, hnew]
    simp
  rcases addLoop_cases client.1 client.2 t.cInfo with
    ⟨before, c, after, heq, hfree, hadd⟩ | ⟨hall, hadd⟩
  · have hroom : m.keys.card < 20 := h.room_iff.mpr ⟨c, by simp [heq], hfree⟩
    have hcleared := h.cleared c (by simp [heq]) hfree
    -- the new slot, and the free one before
    have hnewSlot : ∀ k v, Holds { c with
        clientIp := client.1, clientPort := client.2, inUse := true } k v ↔
          client = k ∧ (0, 0) = v := by
      intro k v
      rw [← hcleared]
      exact and_iff_right rfl
    have hfreeSlot : ∀ k v, ¬ Holds c k v := by
      rintro k v ⟨huse, -⟩
      rw [hfree] at huse
      cases huse
    have hold : ∀ k v, m.lookup k = some v ↔ ∃ d ∈ before ++ after, Holds d k v := by
      intro k v
      simp only [h.lookup, heq, List.mem_append, List.mem_cons, or_and_right, exists_or,
        exists_eq_left, hfreeSlot, false_or]
    refine ⟨?_, fun k v => ?_, ?_⟩
    · have hperm := KnownClients.clientsOf_addLoop client t.known.cInfo
      rw [if_pos (by rw [t.known.length_cInfo]; exact h.card ▸ hroom)] at hperm
      rw [known_add]
      exact hperm.nodup_iff.mpr (List.nodup_cons.mpr ⟨mt h.mem_keys.mpr hfresh, h.nodup⟩)
    · have hslots : (∃ d ∈ (t.addClientToKnownClientList client.1 client.2).cInfo, Holds d k v) ↔
          (client = k ∧ (0, 0) = v) ∨ m.lookup k = some v := by
        simp only [addClientToKnownClientList, hadd, hold, List.mem_append, List.mem_cons,
          or_and_right, exists_or, exists_eq_left, hnewSlot]
        exact or_left_comm
      rw [hslots, BoundedMap.lookup_insert_of_room hfresh hroom]
      by_cases hk : k = client
      · rw [hk, Function.update_self, BoundedMap.not_mem_keys.mp hfresh]
        simp
      · rw [Function.update_of_ne hk]
        simp [Ne.symm hk]
    · intro d hd huse
      simp only [addClientToKnownClientList, hadd, List.mem_append, List.mem_cons] at hd
      rcases hd with hd | rfl | hd
      · exact h.cleared d (by simp [heq, hd]) huse
      · cases huse
      · exact h.cleared d (by simp [heq, hd]) huse
  · have hfull : ¬ m.keys.card < 20 := by
      rw [h.room_iff]
      rintro ⟨c, hc, hfree⟩
      rw [hall c hc] at hfree
      cases hfree
    have hsame : t.addClientToKnownClientList client.1 client.2 = t := by
      simp only [addClientToKnownClientList, hadd]
    rw [BoundedMap.insert_of_full hfull, hsame]
    exact h

lemma isClient_iff {c : ClientRequestInfo} :
    KnownClients.isClient client.1 client.2 c.toClientInfo = true ↔
      c.inUse = true ∧ c.address = client := KnownClients.isClient_iff

lemma holds_forClient {f : ClientRequestInfo → ClientRequestInfo} {k : ClientAddress} {v : ℤ × ℤ} :
    (∃ d ∈ (t.forClient client.1 client.2 f).cInfo, Holds d k v) ↔
      (∃ c ∈ t.cInfo, (c.inUse = true ∧ c.address = client) ∧ Holds (f c) k v) ∨
        ∃ c ∈ t.cInfo, c.address ≠ client ∧ Holds c k v := by
  simp only [forClient, List.mem_map, exists_exists_and_eq_and]
  constructor
  · rintro ⟨c, hc, hd⟩
    split_ifs at hd with his
    · exact Or.inl ⟨c, hc, isClient_iff.mp his, hd⟩
    · exact Or.inr ⟨c, hc, fun haddr => his (isClient_iff.mpr ⟨hd.1, haddr⟩), hd⟩
  · rintro (⟨c, hc, his, hd⟩ | ⟨c, hc, haddr, hd⟩)
    · exact ⟨c, hc, by rwa [if_pos (isClient_iff.mpr his)]⟩
    · exact ⟨c, hc, by rwa [if_neg fun his => haddr (isClient_iff.mp his).2]⟩

lemma Represents.others (h : Represents t m) {k : ClientAddress} {v : ℤ × ℤ} :
    (∃ c ∈ t.cInfo, c.address ≠ client ∧ Holds c k v) ↔ k ≠ client ∧ m.lookup k = some v := by
  rw [h.lookup]
  constructor
  · rintro ⟨c, hc, haddr, huse, rfl, hv⟩
    exact ⟨haddr, c, hc, huse, rfl, hv⟩
  · rintro ⟨hk, c, hc, huse, rfl, hv⟩
    exact ⟨c, hc, hk, huse, rfl, hv⟩

theorem Represents.remove (h : Represents t m) :
    Represents (t.removeClientFromKnownClientList client.1 client.2) (m.erase client) where
  nodup := by
    rw [known_remove, KnownClients.clients_remove]
    exact h.nodup.filter _
  lookup := by
    intro k v
    rw [removeClientFromKnownClientList, holds_forClient, h.others]
    have hzero : ¬ Holds .zero k v := by
      rintro ⟨huse, -⟩
      cases huse
    simp only [hzero, and_false, exists_false, false_or, BoundedMap.erase]
    by_cases hk : k = client
    · simp [hk]
    · simp [hk]
  cleared := by
    intro d hd huse
    obtain ⟨c, hc, rfl⟩ := List.mem_map.mp hd
    split_ifs at huse ⊢
    · rfl
    · exact h.cleared c hc huse

/-- The two setters change what they set, for the client that they set it for. -/
theorem Represents.set (h : Represents t m) {f : ClientRequestInfo → ClientRequestInfo}
    {g : ℤ × ℤ → ℤ × ℤ} (hf : ∀ c, (f c).toClientInfo = c.toClientInfo)
    (hg : ∀ c, ((f c).fileLength, (f c).pid) = g (c.fileLength, c.pid)) :
    Represents (t.forClient client.1 client.2 f) (m.modify client g) where
  nodup := by
    rw [known_forClient hf]
    exact h.nodup
  lookup := by
    intro k v
    have hthis : (∃ c ∈ t.cInfo, (c.inUse = true ∧ c.address = client) ∧ Holds (f c) k v) ↔
        k = client ∧ (m.lookup client).map g = some v := by
      simp only [Option.map_eq_some_iff, h.lookup, Holds, hf, hg]
      constructor
      · rintro ⟨c, hc, ⟨huse, haddr⟩, -, hk, hv⟩
        exact ⟨hk.symm.trans haddr, _, ⟨c, hc, huse, haddr, rfl⟩, hv⟩
      · rintro ⟨hk, w, ⟨c, hc, huse, haddr, rfl⟩, hv⟩
        exact ⟨c, hc, ⟨huse, haddr⟩, huse, haddr.trans hk.symm, hv⟩
    rw [holds_forClient, h.others, hthis, BoundedMap.modify]
    by_cases hk : k = client
    · simp [hk]
    · simp [hk]
  cleared := by
    intro d hd huse
    obtain ⟨c, hc, rfl⟩ := List.mem_map.mp hd
    split_ifs at huse ⊢ with his
    · rw [hf, (isClient_iff.mp his).1] at huse
      cases huse
    · exact h.cleared c hc huse

lemma Represents.step (h : Represents t m) {e : TableCall} (hstep : t.step e = some u) :
    Represents u (TableCall.apply m e) := by
  cases e with
  | chk client =>
    obtain rfl := Option.some.inj hstep
    exact h
  | add client =>
    simp only [ClientTable.step] at hstep
    split_ifs at hstep with hok
    obtain rfl := Option.some.inj hstep
    exact h.add hok.2
  | remove client =>
    obtain rfl := Option.some.inj hstep
    exact h.remove
  | addFileLength client n =>
    obtain rfl := Option.some.inj hstep
    exact h.set (fun _ => rfl) fun _ => rfl
  | addChildPid client pid =>
    obtain rfl := Option.some.inj hstep
    exact h.set (fun _ => rfl) fun _ => rfl

/-- After any calls, the table holds the map that they are for, and `chkRequestRetransmitted`
finds the clients in it. -/
theorem refines_map (calls : List TableCall) (t : ClientTable)
    (hrun : machine.run empty calls = some t) :
    Represents t (calls.foldl TableCall.apply BoundedMap.empty) ∧
      ∀ client : ClientAddress, t.chkRequestRetransmitted client.1 client.2 = true ↔
        client ∈ (calls.foldl TableCall.apply BoundedMap.empty).keys := by
  have hfold : ∀ (calls : List TableCall) (s : ClientTable) m, Represents s m →
      machine.run s calls = some t → Represents t (calls.foldl TableCall.apply m) := by
    intro calls
    induction calls with
    | nil =>
      intro s m hs hrun
      obtain rfl := Option.some.inj hrun
      exact hs
    | cons call calls ih =>
      intro s m hs hrun
      obtain ⟨u, hu, hut⟩ := Machine.run_cons_eq_some.mp hrun
      exact ih u _ (hs.step hu) hut
  have h := hfold calls empty _ represents_empty hrun
  exact ⟨h, fun client => h.chk_iff⟩

def comesBack : List TableCall :=
  [.chk ("10.0.0.1", 5000), .add ("10.0.0.1", 5000), .addFileLength ("10.0.0.1", 5000) 1016,
    .remove ("10.0.0.1", 5000), .add ("10.0.0.1", 5000)]

theorem refines_map_comesBack :
    ∃ t, machine.run empty comesBack = some t ∧
      t.chkRequestRetransmitted "10.0.0.1" 5000 = true ∧
      ∃ c ∈ t.cInfo, Holds c ("10.0.0.1", 5000) (0, 0) := by
  obtain ⟨t, hrun⟩ : ∃ t, machine.run empty comesBack = some t := ⟨_, rfl⟩
  obtain ⟨h, hchk⟩ := refines_map comesBack t hrun
  refine ⟨t, hrun, (hchk ("10.0.0.1", 5000)).mpr (by decide +kernel), ?_⟩
  exact (h.lookup _ _).mp (by decide +kernel)

end ClientTable

end TcpOverUdp
