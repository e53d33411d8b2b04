import TcpOverUdp.ServerInterfaces
import Mathlib.Data.List.Destutter

namespace TcpOverUdp
open CWord

/-- `struct ifreq`, in an answer to `SIOCGIFCONF`: a name of sixteen bytes and a
`struct sockaddr`, as on the hosts that the programs are built for. -/
structure Ifreq where
  ifrName : String
  saFamily : ℕ
  sAddr : Word
  deriving DecidableEq, Repr

def ifreqSize : ℕ := 32

def afInet : ℕ := 2

structure IfFlags where
  up : Bool
  broadcast : Bool
  pointopoint : Bool
  deriving DecidableEq, Repr

/-- What the kernel tells of the interfaces.  If its records do not fit a buffer, it refuses, or it
fills the buffer with those that do. -/
structure Kernel where
  table : List Ifreq
  named : ∀ ifr ∈ table, ifr.ifrName ≠ ""
  refuses : Bool
  flags : String → IfFlags
  brdaddr : String → Word
  dstaddr : String → Word
  ntmaddr : String → Word

structure IfiInfoPlus where
  ifiName : String
  ifiFlags : IfFlags
  /-- `IFI_ALIAS` in `ifi_myflags` -/
  isAlias : Bool
  ifiAddr : Word
  ifiBrdaddr : Option Word
  ifiDstaddr : Option Word
  ifiNtmaddr : Word
  deriving DecidableEq, Repr

def IfiInfoPlus.info (ifi : IfiInfoPlus) : IfiInfo := ⟨ifi.ifiAddr, ifi.ifiNtmaddr⟩

namespace Kernel

/-- `ioctl (.., SIOCGIFCONF, ..)` with a buffer of `len` bytes. -/
def ifconf (K : Kernel) (len : ℕ) : Option (List Ifreq) :=
  if K.table.length * ifreqSize ≤ len then some K.table
  else if K.refuses then none
  else some (K.table.take (len / ifreqSize))

/-- The loop that looks for a buffer size, with the records it ends with.  `err_sys` exits.
`len` and `lastlen`, which are `int`s, are not bounded here. -/
def ifconfLoop (K : Kernel) : ℕ → ℕ → ℕ → Option (Except String (List Ifreq))
  | 0, _, _ => none
  | fuel + 1, len, lastlen =>
    match K.ifconf len with
    | none =>
      -- `EINVAL` before the first answer says only that the buffer is too small
      if lastlen ≠ 0 then some (.error "ioctl error")
      else K.ifconfLoop fuel (len + 10 * ifreqSize) lastlen
    | some records =>
      -- a kernel that truncates gives another length for a larger buffer
      if records.length * ifreqSize = lastlen then some (.ok records)
      else K.ifconfLoop fuel (len + 10 * ifreqSize) (records.length * ifreqSize)

def entry (K : Kernel) (isAlias : Bool) (ifr : Ifreq) : IfiInfoPlus where
  ifiName := ifr.ifrName
  ifiFlags := K.flags ifr.ifrName
  isAlias := isAlias
  ifiAddr := ifr.sAddr
  ifiBrdaddr := if (K.flags ifr.ifrName).broadcast then some (K.brdaddr ifr.ifrName) else none
  ifiDstaddr := if (K.flags ifr.ifrName).pointopoint then some (K.dstaddr ifr.ifrName) else none
  ifiNtmaddr := K.ntmaddr ifr.ifrName

/-- The body of the loop over the records, with `lastname` and the list so far. -/
def visit (K : Kernel) (doaliases : Bool) (s : String × List IfiInfoPlus) (ifr : Ifreq) :
    String × List IfiInfoPlus :=
  if ifr.saFamily ≠ afInet then s
  else if s.1 = ifr.ifrName ∧ doaliases = false then s
  -- an interface that is down is left out, but the next record is compared with its name
  else if (K.flags ifr.ifrName).up = false then (ifr.ifrName, s.2)
  else (ifr.ifrName, s.2 ++ [K.entry (s.1 = ifr.ifrName) ifr])

/-- `get_ifi_info_plus (AF_INET, doaliases)`, with at most `fuel` rounds of its first loop. -/
def getIfiInfoPlus (K : Kernel) (doaliases : Bool) (fuel : ℕ) :
    Option (Except String (List IfiInfoPlus)) :=
  (K.ifconfLoop fuel (100 * ifreqSize) 0).map fun r =>
    r.map fun records => (records.foldl (K.visit doaliases) ("", [])).2

variable {K : Kernel} {fuel len lastlen : ℕ}

lemma ifconfLoop_of_le (hlen : K.table.length * ifreqSize ≤ len) :
    K.ifconfLoop (fuel + 2) len lastlen = some (.ok K.table) := by
  have hnext : K.table.length * ifreqSize ≤ len + 10 * ifreqSize := by omega
  simp only [ifconfLoop, ifconf, if_pos hlen, if_pos hnext, if_true]
  split_ifs <;> rfl

/-- A buffer with room for `m` records.  One that is filled is longer than the last answer, and a
kernel that refuses has not answered yet. -/
lemma ifconfLoop_eq (m : ℕ) (hlast : lastlen < m * ifreqSize)
    (hrefuses : K.refuses = true → lastlen = 0) (hfuel : K.table.length ≤ m + fuel) :
    K.ifconfLoop (fuel + 2) (m * ifreqSize) lastlen = some (.ok K.table) := by
  -- the fuel covers the records that do not fit, and each round has room for ten more
  induction fuel generalizing m lastlen with
  | zero => exact ifconfLoop_of_le (Nat.mul_le_mul_right _ (by omega))
  | succ fuel ih =>
    by_cases hfits : K.table.length ≤ m
    · exact ifconfLoop_of_le (Nat.mul_le_mul_right _ hfits)
    have hshort : ¬ K.table.length * ifreqSize ≤ m * ifreqSize :=
      fun h => hfits (Nat.le_of_mul_le_mul_right h (by decide))
    have hgrow : m * ifreqSize + 10 * ifreqSize = (m + 10) * ifreqSize := (Nat.add_mul _ _ _).symm
    rw [show fuel + 1 + 2 = (fuel + 2) + 1 from rfl, ifconfLoop]
    cases hkind : K.refuses with
    | true =>
      obtain rfl := hrefuses hkind
      simp only [ifconf, if_neg hshort, hkind, if_true, ne_eq, not_true_eq_false, if_false, hgrow]
      exact ih (m + 10) (by simp [ifreqSize]) (fun _ => rfl) (by omega)
    | false =>
      have hlength : (K.table.take (m * ifreqSize / ifreqSize)).length = m := by
        rw [Nat.mul_div_cancel _ (by decide), List.length_take]
        omega
      simp only [ifconf, if_neg hshort, hkind, Bool.false_eq_true, if_false, hlength,
        if_neg hlast.ne', hgrow]
      refine ih (m + 10) ?_ (fun h => ?_) (by omega)
      · rw [← hgrow]
        simp [ifreqSize]
      · rw [hkind] at h
        cases h

def inetRecords (K : Kernel) : List Ifreq := K.table.filter fun ifr => ifr.saFamily = afInet

def isUp (K : Kernel) (ifr : Ifreq) : Bool := (K.flags ifr.ifrName).up

/-- All addresses of the interfaces that are up; an alias has the name of the address before it. -/
def addresses (K : Kernel) : List IfiInfoPlus :=
  ((K.inetRecords.zip ("" :: K.inetRecords.map Ifreq.ifrName)).filter fun p => K.isUp p.1).map
    fun p => K.entry (p.2 = p.1.ifrName) p.1

/-- The first address of each run of one name, if the interface is up. -/
def firstAddresses (K : Kernel) : List IfiInfoPlus :=
  ((K.inetRecords.destutter fun a b => a.ifrName ≠ b.ifrName).filter K.isUp).map (K.entry false)

variable {records : List Ifreq} {doaliases : Bool}

lemma foldl_visit (K : Kernel) (doaliases : Bool) (s : String × List IfiInfoPlus) :
    K.table.foldl (K.visit doaliases) s = K.inetRecords.foldl (K.visit doaliases) s := by
  rw [inetRecords, List.foldl_filter]
  congr 1
  funext s ifr
  by_cases hfamily : ifr.saFamily = afInet <;> simp [visit, hfamily]

lemma visit_true (hfamily : ∀ ifr ∈ records, ifr.saFamily = afInet) (lastname : String)
    (out : List IfiInfoPlus) :
    (records.foldl (K.visit true) (lastname, out)).2 = out ++
      ((records.zip (lastname :: records.map Ifreq.ifrName)).filter fun p => K.isUp p.1).map
        fun p => K.entry (p.2 = p.1.ifrName) p.1 := by
  induction records generalizing lastname out with
  | nil => simp
  | cons ifr records ih =>
    obtain ⟨hifr, hrest⟩ := List.forall_mem_cons.mp hfamily
    by_cases hup : (K.flags ifr.ifrName).up = true
    · simp [visit, hifr, hup, isUp, ih hrest]
    · simp [visit, hifr, hup, isUp, ih hrest]

lemma destutter'_cons_tail {α : Type*} (R : α → α → Prop) [DecidableRel R] (a : α) (l : List α) :
    l.destutter' R a = a :: (l.destutter' R a).tail := by
  induction l generalizing a with
  | nil => rfl
  | cons b l ih =>
    by_cases h : R a b
    · rw [List.destutter'_cons_pos _ h, List.tail_cons]
    · rw [List.destutter'_cons_neg _ h]
      exact ih a

lemma visit_false (hfamily : ∀ ifr ∈ records, ifr.saFamily = afInet) (last : Ifreq)
    (out : List IfiInfoPlus) :
    (records.foldl (K.visit false) (last.ifrName, out)).2 = out ++
      ((records.destutter' (fun a b => a.ifrName ≠ b.ifrName) last).tail.filter K.isUp).map
        (K.entry false) := by
  induction records generalizing last out with
  | nil => simp
  | cons ifr records ih =>
    obtain ⟨hifr, hrest⟩ := List.forall_mem_cons.mp hfamily
    -- `lastname` is the name of the record that `destutter` compares with
    by_cases hname : last.ifrName = ifr.ifrName
    · rw [List.destutter'_cons_neg _ (by simpa using hname), List.foldl_cons]
      simpa [visit, hifr, hname] using ih hrest last out
    · rw [List.destutter'_cons_pos _ hname, List.tail_cons, destutter'_cons_tail]
      by_cases hup : (K.flags ifr.ifrName).up = true
      · simp [visit, hifr, hname, hup, isUp, ih hrest]
      · simp [visit, hifr, hname, hup, isUp, ih hrest]

lemma destutter'_unnamed (hnamed : ∀ ifr ∈ records, ifr.ifrName ≠ "") (last : Ifreq)
    (hlast : last.ifrName = "") :
    (records.destutter' (fun a b => a.ifrName ≠ b.ifrName) last).tail =
      records.destutter fun a b => a.ifrName ≠ b.ifrName := by
  cases records with
  | nil => rfl
  | cons ifr records =>
    rw [List.destutter'_cons_pos, List.tail_cons, List.destutter_cons']
    rw [hlast]
    exact (hnamed ifr List.mem_cons_self).symm

lemma getIfiInfoPlus_walk (K : Kernel) (doaliases : Bool) (more : ℕ) :
    K.getIfiInfoPlus doaliases (K.table.length + more + 2) =
      some (.ok (K.table.foldl (K.visit doaliases) ("", [])).2) := by
  have hloop : K.ifconfLoop (K.table.length + more + 2) (100 * ifreqSize) 0 =
      some (.ok K.table) :=
    ifconfLoop_eq 100 (by decide) (fun _ => rfl) (by omega)
  rw [getIfiInfoPlus, hloop, Option.map_some]
  rfl

lemma saFamily_inetRecords (K : Kernel) : ∀ ifr ∈ K.inetRecords, ifr.saFamily = afInet :=
  fun ifr hifr => by simpa using (List.mem_filter.mp hifr).2

lemma walk_aliases (K : Kernel) : (K.table.foldl (K.visit true) ("", [])).2 = K.addresses := by
  rw [foldl_visit]
  exact visit_true K.saFamily_inetRecords "" []

lemma walk_first (K : Kernel) :
    (K.table.foldl (K.visit false) ("", [])).2 = K.firstAddresses := by
  have hnamed : ∀ ifr ∈ K.inetRecords, ifr.ifrName ≠ "" :=
    fun ifr hifr => K.named ifr (List.mem_filter.mp hifr).1
  rw [foldl_visit]
  refine (visit_false K.saFamily_inetRecords ⟨"", 0, 0⟩ []).trans ?_
  rw [destutter'_unnamed hnamed _ rfl]
  rfl

/-- Whether the kernel truncates its answers or refuses to give them, and however many records it
has: the list has every address of the interfaces that are up, in the order of the kernel, or,
without aliases, the first one of each run of records with one name. -/
theorem getIfiInfoPlus_eq (K : Kernel) (doaliases : Bool) (more : ℕ) :
    K.getIfiInfoPlus doaliases (K.table.length + more + 2) =
      some (.ok (if doaliases then K.addresses else K.firstAddresses)) := by
  rw [getIfiInfoPlus_walk]
  cases doaliases with
  | true => rw [walk_aliases, if_pos rfl]
  | false =>
    rw [walk_first]
    rfl

/-- What the two programs look at: the addresses of the interfaces that are up, with the masks
that go with their names. -/
lemma addresses_info (K : Kernel) :
    K.addresses.map IfiInfoPlus.info =
      (K.inetRecords.filter K.isUp).map fun ifr => ⟨ifr.sAddr, K.ntmaddr ifr.ifrName⟩ := by
  have hfst : (K.inetRecords.zip ("" :: K.inetRecords.map Ifreq.ifrName)).map Prod.fst =
      K.inetRecords := List.map_fst_zip (by simp)
  conv_rhs => rw [← hfst, List.filter_map, List.map_map]
  rw [addresses, List.map_map]
  rfl

/-- `Get_ifi_info_plus (AF_INET, 1)`, which exits if the list is empty. -/
def interfaces (K : Kernel) (fuel : ℕ) : Option (List IfiInfo) :=
  match K.getIfiInfoPlus true fuel with
  | some (.ok (ifi :: list)) => some ((ifi :: list).map IfiInfoPlus.info)
  | _ => none

end Kernel

namespace AddressChoice

variable {host : ByteOrder} {s : AddressChoice} {ifi : IfiInfo}

lemma visit_same (h : ifi.ifiAddr = s.serverAddr) : SameHost host (s.visit host ifi) := by
  obtain ⟨client, hcopy⟩ := @copyFirst_eq host s ifi
  rw [visit, hcopy, testSameHost, if_pos h]
  exact ⟨by simp [testSubnet], rfl, rfl, rfl, rfl⟩

lemma visit_serverAddr (h : ifi.ifiAddr ≠ s.serverAddr) :
    (s.visit host ifi).serverAddr = s.serverAddr := by
  obtain ⟨client, hcopy⟩ := @copyFirst_eq host s ifi
  rw [visit, hcopy, testSameHost, if_neg h]
  simp only [testSubnet]
  split_ifs <;> rfl

lemma SameHost.foldl (h : SameHost host s) (list : List IfiInfo) :
    SameHost host (list.foldl (AddressChoice.visit host) s) := by
  induction list generalizing s with
  | nil => exact h
  | cons ifi list ih => exact ih (h.visit ifi)

lemma sameHost_foldl {list : List IfiInfo} (h : ∃ ifi ∈ list, ifi.ifiAddr = s.serverAddr) :
    SameHost host (list.foldl (visit host) s) := by
  induction list generalizing s with
  | nil =>
    obtain ⟨_, hmem, -⟩ := h
    cases hmem
  | cons ifi list ih =>
    by_cases hsame : ifi.ifiAddr = s.serverAddr
    · exact (visit_same hsame).foldl list
    · obtain ⟨other, hmem, hother⟩ := h
      refine ih ⟨other, (List.mem_cons.mp hmem).resolve_left ?_, ?_⟩
      · rintro rfl
        exact hsame hother
      · rw [visit_serverAddr hsame]
        exact hother

end AddressChoice

/-- A request to the address that the client has chosen reaches a socket of the server, and the
child has an interface for the client. -/
def ReachesServer (host : ByteOrder) (ifihead : List IfiInfo) (c : AddressChoice) : Prop :=
  (∃ info ∈ bindServerToUnicastInterfaces host ifihead,
      info.serverIp.text = (ntop host c.serverAddr).text) ∧
    (childSocket host ifihead c.clientAddr).interFaceCount <
      (bindServerToUnicastInterfaces host ifihead).length

lemma reachesServer_loopback_iff {host : ByteOrder} {ifihead : List IfiInfo} {c : AddressChoice}
    (h : c.SameHost host) :
    ReachesServer host ifihead c ↔ ∃ ifi ∈ ifihead, ifi.ifiAddr = loopbackAddress host := by
  have hbound : (∃ info ∈ bindServerToUnicastInterfaces host ifihead,
      info.serverIp.text = (ntop host c.serverAddr).text) ↔
        ∃ ifi ∈ ifihead, ifi.ifiAddr = loopbackAddress host := by
    simp only [bindServerToUnicastInterfaces, List.mem_map, exists_exists_and_eq_and,
      bindServerToUnicastInterface, ntop_text_inj, h.server]
  rw [ReachesServer, hbound, interFaceCount_lt_iff, h.client]
  constructor
  · exact fun hboth => hboth.1
  · rintro ⟨ifi, hmem, hifi⟩
    exact ⟨⟨ifi, hmem, hifi⟩, ifi, hmem, Or.inl hifi⟩

namespace Kernel

/-- A client on the host of the server, which has been given any of its addresses, sends from and
to the loopback address.  It is served if and only if that is the address of an interface that is
up, whichever address it was given. -/
theorem reachesServer_iff (K : Kernel) (host : ByteOrder) (server client : Word) (more : ℕ)
    (hserver : ∃ ifr ∈ K.inetRecords, K.isUp ifr = true ∧ ifr.sAddr = server) :
    ∃ ifihead, K.interfaces (K.table.length + more + 2) = some ifihead ∧
      (getClientIPAddress host ifihead server client).serverAddr = loopbackAddress host ∧
      (getClientIPAddress host ifihead server client).clientAddr = loopbackAddress host ∧
      (ReachesServer host ifihead (getClientIPAddress host ifihead server client) ↔
        ∃ ifr ∈ K.inetRecords, K.isUp ifr = true ∧ ifr.sAddr = loopbackAddress host) := by
  have hmem : ∀ addr : Word, (∃ ifi ∈ K.addresses.map IfiInfoPlus.info, ifi.ifiAddr = addr) ↔
      ∃ ifr ∈ K.inetRecords, K.isUp ifr = true ∧ ifr.sAddr = addr := by
    intro addr
    rw [addresses_info]
    constructor
    · rintro ⟨_, hmem, rfl⟩
      obtain ⟨ifr, hifr, rfl⟩ := List.mem_map.mp hmem
      obtain ⟨hinet, hup⟩ := List.mem_filter.mp hifr
      exact ⟨ifr, hinet, hup, rfl⟩
    · rintro ⟨ifr, hinet, hup, rfl⟩
      exact ⟨_, List.mem_map_of_mem (List.mem_filter.mpr ⟨hinet, hup⟩), rfl⟩
  have hsame : (getClientIPAddress host (K.addresses.map IfiInfoPlus.info) server client).SameHost
      host := AddressChoice.sameHost_foldl ((hmem server).mpr hserver)
  refine ⟨K.addresses.map IfiInfoPlus.info, ?_, hsame.server, hsame.client, ?_⟩
  · -- `Get_ifi_info_plus` exits on an empty list; the server's address is in it
    have hne : K.addresses ≠ [] := by
      rintro hnil
      obtain ⟨ifi, hifi, -⟩ := (hmem server).mpr hserver
      rw [hnil] at hifi
      cases hifi
    obtain ⟨ifi, list, hlist⟩ := List.exists_cons_of_ne_nil hne
    rw [interfaces, getIfiInfoPlus_walk, walk_aliases, hlist]
  · rw [← hmem (loopbackAddress host)]
    exact reachesServer_loopback_iff hsame

/-- The loopback interface and one in a network of eight bits, both up. -/
def lan : Kernel where
  table := [⟨"lo", afInet, 0x7f000001⟩, ⟨"eth0", afInet, 0x0a000005⟩]
  named := by decide
  refuses := false
  flags _ := ⟨true, true, false⟩
  brdaddr _ := 0x0affffff
  dstaddr _ := 0
  ntmaddr _ := 0xff000000

theorem reachesServer_iff_lan :
    ∃ ifihead, lan.interfaces 4 = some ifihead ∧
      (getClientIPAddress .big ifihead 0x0a000005 0).clientAddr = 0x7f000001 ∧
      ReachesServer .big ifihead (getClientIPAddress .big ifihead 0x0a000005 0) := by
  obtain ⟨ifihead, hlist, -, hclient, hiff⟩ := reachesServer_iff lan .big 0x0a000005 0 0
    ⟨⟨"eth0", afInet, 0x0a000005⟩, by decide, by decide, by decide⟩
  exact ⟨ifihead, hlist, hclient.trans (by decide),
    hiff.mpr ⟨⟨"lo", afInet, 0x7f000001⟩, by decide, by decide, by decide⟩⟩

end Kernel

end TcpOverUdp
