import TcpOverUdp.Lib.CWord

namespace TcpOverUdp
open CWord

/-- `struct ifi_info`: the address and the network mask, as words that the host reads from the bytes
of the network. -/
structure IfiInfo where
  ifiAddr : Word
  ifiNtmaddr : Word
  deriving DecidableEq, Repr

def loopback : Word := 0x7f000001

def loopbackAddress (host : ByteOrder) : Word := htonl host loopback

/-- The variables of `GetClientIPAddress`, and what its arguments point to. -/
structure AddressChoice where
  i : ℕ
  longestPrefixMatch : Word
  serverAddr : Word
  clientAddr : Word
  isSameHost : Bool
  isLocal : Bool
  deriving DecidableEq, Repr

namespace AddressChoice

def start (serverAddr clientAddr : Word) : AddressChoice :=
  ⟨0, 0, serverAddr, clientAddr, false, false⟩

/-- The first interface is copied, and one behind it over a loopback address. -/
def copyFirst (host : ByteOrder) (s : AddressChoice) (ifi : IfiInfo) : AddressChoice :=
  if s.i = 0 then { s with clientAddr := ifi.ifiAddr }
  else if !s.isLocal ∧ !s.isSameHost ∧ s.clientAddr = loopbackAddress host then
    { s with clientAddr := ifi.ifiAddr }
  else s

def testSameHost (host : ByteOrder) (s : AddressChoice) (ifi : IfiInfo) : AddressChoice :=
  if ifi.ifiAddr = s.serverAddr then
    { s with
      isLocal := true
      isSameHost := true
      clientAddr := loopbackAddress host
      serverAddr := loopbackAddress host }
  else s

def testSubnet (s : AddressChoice) (ifi : IfiInfo) : AddressChoice :=
  if !s.isSameHost then
    if ifi.ifiAddr &&& ifi.ifiNtmaddr = s.serverAddr &&& ifi.ifiNtmaddr then
      if s.longestPrefixMatch < ifi.ifiNtmaddr then
        { s with
          isLocal := true
          clientAddr := ifi.ifiAddr
          longestPrefixMatch := ifi.ifiNtmaddr }
      else s
    else s
  else s

def visit (host : ByteOrder) (s : AddressChoice) (ifi : IfiInfo) : AddressChoice :=
  let s := ((s.copyFirst host ifi).testSameHost host ifi).testSubnet ifi
  { s with i := s.i + 1 }

end AddressChoice

def getClientIPAddress (host : ByteOrder) (ifiInfoHead : List IfiInfo)
    (serverAddr clientAddr : Word) : AddressChoice :=
  ifiInfoHead.foldl (AddressChoice.visit host) (.start serverAddr clientAddr)

def netmask (length : ℕ) : Word := BitVec.allOnes 32 <<< (32 - length)

/-- An address and the length of the prefix that its mask leaves. -/
structure Interface where
  address : Word
  length : ℕ
  length_le : length ≤ 32

def Interface.info (host : ByteOrder) (ifc : Interface) : IfiInfo :=
  ⟨htonl host ifc.address, htonl host (netmask ifc.length)⟩

def Interface.OnSubnet (ifc : Interface) (addr : Word) : Prop :=
  ifc.address &&& netmask ifc.length = addr &&& netmask ifc.length

instance (ifc : Interface) (addr : Word) : Decidable (ifc.OnSubnet addr) :=
  inferInstanceAs (Decidable (_ = _))

/-- The first of the interfaces with the longest prefix among those whose subnet `addr` is in. -/
def LongestMatch (addr : Word) (ifcs : List Interface) (ifc : Interface) : Prop :=
  ∃ before after, ifcs = before ++ ifc :: after ∧ ifc.OnSubnet addr ∧
    (∀ other ∈ before, other.OnSubnet addr → other.length < ifc.length) ∧
    ∀ other ∈ after, other.OnSubnet addr → other.length ≤ ifc.length

/-- The first address that is not the loopback address, if there is one. -/
def firstAddress (ifcs : List Interface) : Word :=
  ((ifcs.find? fun ifc => ifc.address ≠ loopback).map Interface.address).getD loopback

@[simp] lemma htonl_inj {host : ByteOrder} {a b : Word} : htonl host a = htonl host b ↔ a = b := by
  constructor
  · intro h
    simpa using congrArg (ntohl host) h
  · rintro rfl
    rfl

lemma htonl_and (host : ByteOrder) (a b : Word) :
    htonl host (a &&& b) = htonl host a &&& htonl host b := by
  cases host with
  | big => rfl
  | little =>
    simp only [htonl, byteSwap]
    ext i hi
    simp only [BitVec.getElem_and, BitVec.getElem_append, BitVec.getElem_extractLsb',
      BitVec.getLsbD_and]
    grind

lemma htonl_netmask_lt (host : ByteOrder) {m n : ℕ} (hm : m ≤ 32) (hn : n ≤ 32) :
    htonl host (netmask m) < htonl host (netmask n) ↔ m < n := by
  have h : ∀ (host : ByteOrder) (m n : Fin 33),
      htonl host (netmask m) < htonl host (netmask n) ↔ m < n := by
    intro host
    cases host <;> decide +kernel
  exact h host ⟨m, by omega⟩ ⟨n, by omega⟩

lemma htonl_netmask_zero (host : ByteOrder) : htonl host (netmask 0) = 0 := by
  cases host <;> decide

lemma pos_htonl_netmask (host : ByteOrder) {n : ℕ} (hn : n ≤ 32) :
    0 < htonl host (netmask n) ↔ 0 < n := by
  rw [← htonl_netmask_zero host, htonl_netmask_lt host (by omega) hn]

lemma onSubnet_info (host : ByteOrder) (ifc : Interface) (addr : Word) :
    (ifc.info host).ifiAddr &&& (ifc.info host).ifiNtmaddr =
        htonl host addr &&& (ifc.info host).ifiNtmaddr ↔ ifc.OnSubnet addr := by
  simp only [Interface.info, ← htonl_and, htonl_inj, Interface.OnSubnet]

variable {host : ByteOrder} {addr client : Word} {ifcs seen : List Interface}
  {ifc best : Interface} {s : AddressChoice}

lemma LongestMatch.mem (h : LongestMatch addr ifcs best) : best ∈ ifcs := by
  obtain ⟨before, after, rfl, -⟩ := h
  simp

lemma LongestMatch.le (h : LongestMatch addr ifcs best) (hmem : ifc ∈ ifcs)
    (hon : ifc.OnSubnet addr) : ifc.length ≤ best.length := by
  obtain ⟨before, after, rfl, -, hbefore, hafter⟩ := h
  rcases List.mem_append.mp hmem with hmem | hmem
  · exact (hbefore ifc hmem hon).le
  · rcases List.mem_cons.mp hmem with rfl | hmem
    · exact le_rfl
    · exact hafter ifc hmem hon

lemma longestMatch_concat_new (hon : ifc.OnSubnet addr)
    (h : ∀ other ∈ seen, other.OnSubnet addr → other.length < ifc.length) :
    LongestMatch addr (seen ++ [ifc]) ifc := ⟨seen, [], rfl, hon, h, by simp⟩

lemma LongestMatch.concat (h : LongestMatch addr seen best)
    (hnot : ifc.OnSubnet addr → ifc.length ≤ best.length) :
    LongestMatch addr (seen ++ [ifc]) best := by
  obtain ⟨before, after, rfl, hon, hbefore, hafter⟩ := h
  refine ⟨before, after ++ [ifc], by simp, hon, hbefore, fun other hmem => ?_⟩
  rcases List.mem_append.mp hmem with hmem | hmem
  · exact hafter other hmem
  · rw [List.mem_singleton.mp hmem]
    exact hnot

lemma firstAddress_concat (seen : List Interface) (ifc : Interface) :
    firstAddress (seen ++ [ifc]) =
      if firstAddress seen = loopback then ifc.address else firstAddress seen := by
  unfold firstAddress
  rw [List.find?_append]
  cases hfind : seen.find? fun ifc => ifc.address ≠ loopback with
  | some first =>
    have hne : first.address ≠ loopback := by simpa using List.find?_some hfind
    simp [hne]
  | none =>
    by_cases hloop : ifc.address = loopback
    · simp [hloop]
    · simp [hloop]

namespace AddressChoice

/-- The server is on the same host, and nothing changes any more. -/
structure SameHost (host : ByteOrder) (s : AddressChoice) : Prop where
  visited : s.i ≠ 0
  sameHost : s.isSameHost = true
  isLocal : s.isLocal = true
  client : s.clientAddr = loopbackAddress host
  server : s.serverAddr = loopbackAddress host

def Matched (host : ByteOrder) (addr : Word) (seen : List Interface) (s : AddressChoice) : Prop :=
  ∃ best, LongestMatch addr seen best ∧ 0 < best.length ∧ s.isLocal = true ∧
    s.clientAddr = htonl host best.address ∧
    s.longestPrefixMatch = htonl host (netmask best.length)

def Unmatched (host : ByteOrder) (addr : Word) (seen : List Interface) (s : AddressChoice) : Prop :=
  (∀ ifc ∈ seen, ifc.OnSubnet addr → ifc.length = 0) ∧ s.isLocal = false ∧
    s.longestPrefixMatch = 0 ∧ (seen ≠ [] → s.clientAddr = htonl host (firstAddress seen))

/-- What the loop has found, as long as it has not seen the server's address. -/
structure Seen (host : ByteOrder) (addr : Word) (seen : List Interface) (s : AddressChoice) :
    Prop where
  count : s.i = seen.length
  server : s.serverAddr = htonl host addr
  notSame : s.isSameHost = false
  choice : Matched host addr seen s ∨ Unmatched host addr seen s

lemma seen_start (host : ByteOrder) (addr client : Word) :
    Seen host addr [] (start (htonl host addr) client) where
  count := rfl
  server := rfl
  notSame := rfl
  choice := Or.inr ⟨by simp, rfl, rfl, by simp⟩

lemma SameHost.visit (h : SameHost host s) (ifi : IfiInfo) : SameHost host (s.visit host ifi) := by
  obtain ⟨i, longest, server, client, same, loc⟩ := s
  obtain ⟨hvisited, rfl, rfl, rfl, rfl⟩ := h
  have hcopy : copyFirst host ⟨i, longest, loopbackAddress host, loopbackAddress host, true, true⟩
      ifi = ⟨i, longest, loopbackAddress host, loopbackAddress host, true, true⟩ :=
    (if_neg hvisited).trans (if_neg (by simp))
  rw [AddressChoice.visit, hcopy, testSameHost, ite_self]
  exact ⟨by simp, rfl, rfl, rfl, rfl⟩

lemma copyFirst_eq (s : AddressChoice) (ifi : IfiInfo) :
    ∃ client, s.copyFirst host ifi = { s with clientAddr := client } := by
  unfold copyFirst
  split_ifs <;> exact ⟨_, rfl⟩

lemma Seen.visit_same (h : Seen host addr seen s) (hsame : ifc.address = addr) :
    SameHost host (s.visit host (ifc.info host)) := by
  obtain ⟨client, hcopy⟩ :
      ∃ client, s.copyFirst host (ifc.info host) = { s with clientAddr := client } :=
    copyFirst_eq s _
  have hserver : (ifc.info host).ifiAddr = s.serverAddr := by rw [h.server, ← hsame]; rfl
  rw [AddressChoice.visit, hcopy, testSameHost, if_pos hserver]
  exact ⟨by simp [testSubnet], rfl, rfl, rfl, rfl⟩

lemma Unmatched.copyFirst (h : Unmatched host addr seen s) (hcount : s.i = seen.length)
    (hnot : s.isSameHost = false) :
    s.copyFirst host (ifc.info host) =
      { s with clientAddr := htonl host (firstAddress (seen ++ [ifc])) } := by
  obtain ⟨-, hlocal, -, hclient⟩ := h
  rw [firstAddress_concat]
  unfold AddressChoice.copyFirst
  by_cases hnil : seen = []
  · rw [if_pos (by simp [hcount, hnil])]
    simp [hnil, firstAddress, Interface.info]
  · have hloop : (!s.isLocal ∧ !s.isSameHost ∧ s.clientAddr = loopbackAddress host) ↔
        firstAddress seen = loopback := by
      rw [hlocal, hnot, hclient hnil, loopbackAddress, htonl_inj]
      simp
    rw [if_neg (by simp [hcount, hnil])]
    simp only [hloop]
    split_ifs
    · rfl
    · rw [← hclient hnil]

lemma testSubnet_eq (hnot : s.isSameHost = false) (hserver : s.serverAddr = htonl host addr)
    (client : Word) :
    ({ s with clientAddr := client } : AddressChoice).testSubnet (ifc.info host) =
      if ifc.OnSubnet addr ∧ s.longestPrefixMatch < htonl host (netmask ifc.length) then
        { s with
          isLocal := true
          clientAddr := htonl host ifc.address
          longestPrefixMatch := htonl host (netmask ifc.length) }
      else { s with clientAddr := client } := by
  unfold testSubnet
  rw [if_pos (by simp [hnot]), hserver]
  simp only [onSubnet_info, ite_and]
  rfl

lemma Seen.visit (h : Seen host addr seen s) (hother : ifc.address ≠ addr) :
    Seen host addr (seen ++ [ifc]) (s.visit host (ifc.info host)) := by
  have hpass : ∀ client, ({ s with clientAddr := client } : AddressChoice).testSameHost host
      (ifc.info host) = { s with clientAddr := client } := by
    intro client
    apply if_neg
    rw [show ({ s with clientAddr := client } : AddressChoice).serverAddr = htonl host addr from
      h.server, Interface.info, htonl_inj]
    exact hother
  rcases h.choice with ⟨best, hbest, hpos, hlocal, hclient, hlongest⟩ | hun
  · have hne : seen ≠ [] := List.ne_nil_of_mem hbest.mem
    have hcopy : s.copyFirst host (ifc.info host) = { s with clientAddr := s.clientAddr } := by
      simp [copyFirst, h.count, hne, hlocal]
    rw [AddressChoice.visit, hcopy, hpass, testSubnet_eq h.notSame h.server]
    simp only [hlongest, htonl_netmask_lt host best.length_le ifc.length_le]
    split_ifs with hbetter
    · refine ⟨by simp [h.count], h.server, h.notSame, Or.inl ⟨ifc, ?_, by omega, rfl, rfl, rfl⟩⟩
      exact longestMatch_concat_new hbetter.1 fun other hmem hon =>
        lt_of_le_of_lt (hbest.le hmem hon) hbetter.2
    · refine ⟨by simp [h.count], h.server, h.notSame,
        Or.inl ⟨best, hbest.concat fun hon => ?_, hpos, hlocal, hclient, rfl⟩⟩
      exact not_lt.mp fun hlt => hbetter ⟨hon, hlt⟩
  · have hcopy : s.copyFirst host (ifc.info host) =
        { s with clientAddr := htonl host (firstAddress (seen ++ [ifc])) } :=
      hun.copyFirst h.count h.notSame
    obtain ⟨hzero, hlocal, hlongest, -⟩ := hun
    rw [AddressChoice.visit, hcopy, hpass, testSubnet_eq h.notSame h.server]
    simp only [hlongest, pos_htonl_netmask host ifc.length_le]
    split_ifs with hmatch
    · refine ⟨by simp [h.count], h.server, h.notSame,
        Or.inl ⟨ifc, ?_, hmatch.2, rfl, rfl, rfl⟩⟩
      exact longestMatch_concat_new hmatch.1 fun other hmem hon => by
        rw [hzero other hmem hon]
        exact hmatch.2
    · refine ⟨by simp [h.count], h.server, h.notSame,
        Or.inr ⟨fun other hmem hon => ?_, hlocal, rfl, fun _ => rfl⟩⟩
      rcases List.mem_append.mp hmem with hmem | hmem
      · exact hzero other hmem hon
      · rw [List.mem_singleton.mp hmem] at hon ⊢
        by_contra hlen
        exact hmatch ⟨hon, Nat.pos_of_ne_zero hlen⟩

lemma getClientIPAddress_cases (host : ByteOrder) (addr client : Word) (ifcs : List Interface) :
    (∃ ifc ∈ ifcs, ifc.address = addr) ∧
        SameHost host (getClientIPAddress host (ifcs.map (Interface.info host)) (htonl host addr)
          client) ∨
      (¬ ∃ ifc ∈ ifcs, ifc.address = addr) ∧
        Seen host addr ifcs (getClientIPAddress host (ifcs.map (Interface.info host))
          (htonl host addr) client) := by
  induction ifcs using List.reverseRecOn with
  | nil => exact Or.inr ⟨by simp, seen_start host addr client⟩
  | append_singleton ifcs ifc ih =>
    simp only [getClientIPAddress, List.map_append, List.foldl_append, List.map_cons, List.map_nil,
      List.foldl_cons, List.foldl_nil] at ih ⊢
    rcases ih with ⟨⟨same, hmem, hsame⟩, h⟩ | ⟨hnone, h⟩
    · exact Or.inl ⟨⟨same, by simp [hmem], hsame⟩, h.visit _⟩
    · by_cases hsame : ifc.address = addr
      · exact Or.inl ⟨⟨ifc, by simp, hsame⟩, h.visit_same hsame⟩
      · refine Or.inr ⟨?_, h.visit hsame⟩
        rintro ⟨other, hmem, hother⟩
        rcases List.mem_append.mp hmem with hmem | hmem
        · exact hnone ⟨other, hmem, hother⟩
        · exact hsame (List.mem_singleton.mp hmem ▸ hother)

end AddressChoice

/-- The server's own address makes both ends use the loopback address; otherwise the client takes
the address of the longest match, and without one the first that is not the loopback address. -/
theorem selects_longest_match (host : ByteOrder) (ifcs : List Interface) (hne : ifcs ≠ [])
    (addr client : Word) :
    let s := getClientIPAddress host (ifcs.map (Interface.info host)) (htonl host addr) client
    ((∃ ifc ∈ ifcs, ifc.address = addr) →
        s.isSameHost = true ∧ s.isLocal = true ∧ s.clientAddr = htonl host loopback ∧
          s.serverAddr = htonl host loopback) ∧
      ((¬ ∃ ifc ∈ ifcs, ifc.address = addr) →
        (∃ ifc ∈ ifcs, 0 < ifc.length ∧ ifc.OnSubnet addr) →
          s.isLocal = true ∧ s.isSameHost = false ∧ s.serverAddr = htonl host addr ∧
            ∃ best, LongestMatch addr ifcs best ∧ s.clientAddr = htonl host best.address) ∧
      ((¬ ∃ ifc ∈ ifcs, ifc.address = addr) →
        (¬ ∃ ifc ∈ ifcs, 0 < ifc.length ∧ ifc.OnSubnet addr) →
          s.isLocal = false ∧ s.isSameHost = false ∧ s.serverAddr = htonl host addr ∧
            s.clientAddr = htonl host (firstAddress ifcs)) := by
  intro s
  rcases AddressChoice.getClientIPAddress_cases host addr client ifcs with
    ⟨hsame, h⟩ | ⟨hnone, h⟩
  · exact ⟨fun _ => ⟨h.sameHost, h.isLocal, h.client, h.server⟩, fun hn => absurd hsame hn,
      fun hn => absurd hsame hn⟩
  · refine ⟨fun hsame => absurd hsame hnone, fun _ hsome => ?_, fun _ hzero => ?_⟩
    · rcases h.choice with ⟨best, hbest, -, hlocal, hclient, -⟩ | ⟨hlen, -⟩
      · exact ⟨hlocal, h.notSame, h.server, best, hbest, hclient⟩
      · obtain ⟨ifc, hmem, hpos, hon⟩ := hsome
        have := hlen ifc hmem hon
        omega
    · rcases h.choice with ⟨best, hbest, hpos, -⟩ | ⟨-, hlocal, -, hclient⟩
      · obtain ⟨before, after, rfl, hon, -⟩ := hbest
        exact absurd ⟨best, by simp, hpos, hon⟩ hzero
      · exact ⟨hlocal, h.notSame, h.server, hclient hne⟩

def loopbackInterface : Interface := ⟨loopback, 8, by norm_num⟩

def lanInterface : Interface := ⟨0x0a000005, 24, by norm_num⟩

/-- On a little-endian host, the server 10.0.0.9 is reached from 10.0.0.5. -/
theorem selects_longest_match_lan :
    let s := getClientIPAddress .little
      ([loopbackInterface, lanInterface].map (Interface.info .little)) (htonl .little 0x0a000009) 0
    s.isLocal = true ∧ s.isSameHost = false ∧ s.serverAddr = htonl .little 0x0a000009 ∧
      ∃ best, LongestMatch 0x0a000009 [loopbackInterface, lanInterface] best ∧
        s.clientAddr = htonl .little best.address := by
  apply (selects_longest_match .little [loopbackInterface, lanInterface] (by simp) 0x0a000009 0).2.1
  · simp only [List.mem_cons, List.not_mem_nil, or_false, exists_eq_or_imp, exists_eq_left]
    decide
  · exact ⟨lanInterface, by simp, by decide, by decide⟩

end TcpOverUdp
