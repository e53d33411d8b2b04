import TcpOverUdp.Interfaces
import TcpOverUdp.Lib.DottedQuad

namespace TcpOverUdp
open CWord

def ntop (host : ByteOrder) (sAddr : Word) : DottedQuad := .print (ntohl host sAddr)

def pton (host : ByteOrder) (text : DottedQuad) : Word := htonl host text.address

@[simp] lemma pton_ntop (host : ByteOrder) (sAddr : Word) :
    pton host (ntop host sAddr) = sAddr := by
  rw [pton, ntop, DottedQuad.address_print]
  exact ntohl_htonl host sAddr

lemma ntop_text_inj {host : ByteOrder} {a b : Word} :
    (ntop host a).text = (ntop host b).text ↔ a = b := by
  rw [ntop, ntop, DottedQuad.text_print_inj]
  exact htonl_inj

structure ServerIntrIpInfo where
  serverIp : DottedQuad
  netMaskIp : DottedQuad
  subnetAddr : DottedQuad

def bindServerToUnicastInterface (host : ByteOrder) (ifi : IfiInfo) : ServerIntrIpInfo :=
  let serverIp := ntop host ifi.ifiAddr
  let ipforSubnet := pton host serverIp
  let netMaskIp := ntop host ifi.ifiNtmaddr
  let maskforSubnet := pton host netMaskIp
  ⟨serverIp, netMaskIp, ntop host (ipforSubnet &&& maskforSubnet)⟩

def bindServerToUnicastInterfaces (host : ByteOrder) (ifihead : List IfiInfo) :
    List ServerIntrIpInfo :=
  ifihead.map (bindServerToUnicastInterface host)

/-- The variables of a server child that depend on the loop over the interfaces, and the option
`SO_DONTROUTE` of `connectfd`. -/
structure ChildSocket where
  interFaceCount : ℕ
  isLocal : Bool
  isSameHost : Bool
  dontRoute : Bool
  deriving DecidableEq, Repr

/-- The loop over the interfaces from number `interFaceCount` on.  A socket is created with
`SO_DONTROUTE` off. -/
def checkLocal (host : ByteOrder) (ipOfClient : DottedQuad) :
    List ServerIntrIpInfo → ℕ → ChildSocket
  | [], interFaceCount => ⟨interFaceCount, false, false, false⟩
  | info :: servIpInfo, interFaceCount =>
    if info.serverIp.text = ipOfClient.text then ⟨interFaceCount, false, true, false⟩
    else if pton host ipOfClient &&& pton host info.netMaskIp = pton host info.subnetAddr then
      ⟨interFaceCount, true, false, false⟩
    else checkLocal host ipOfClient servIpInfo (interFaceCount + 1)

def setDontRoute (c : ChildSocket) : ChildSocket :=
  let val : ℤ := 0
  if c.isLocal = false ∨ c.isSameHost = false then { c with dontRoute := decide (val ≠ 0) } else c

def childSocket (host : ByteOrder) (ifihead : List IfiInfo) (sAddr : Word) : ChildSocket :=
  setDontRoute
    (checkLocal host (ntop host sAddr) (bindServerToUnicastInterfaces host ifihead) 0)

def IfiInfo.Reaches (ifi : IfiInfo) (sAddr : Word) : Prop :=
  ifi.ifiAddr = sAddr ∨ sAddr &&& ifi.ifiNtmaddr = ifi.ifiAddr &&& ifi.ifiNtmaddr

/-- The number of an interface is used, and routing is off for the clients that one reaches. -/
def BindsAndRoutes (host : ByteOrder) (ifihead : List IfiInfo) (sAddr : Word) : Prop :=
  (childSocket host ifihead sAddr).interFaceCount <
      (bindServerToUnicastInterfaces host ifihead).length ∧
    ((childSocket host ifihead sAddr).dontRoute = true ↔ ∃ ifi ∈ ifihead, ifi.Reaches sAddr)

variable {host : ByteOrder} {ifihead : List IfiInfo} {sAddr : Word}

lemma reaches_iff (ifi : IfiInfo) :
    ifi.Reaches sAddr ↔
      (bindServerToUnicastInterface host ifi).serverIp.text = (ntop host sAddr).text ∨
        pton host (ntop host sAddr) &&& pton host (bindServerToUnicastInterface host ifi).netMaskIp =
          pton host (bindServerToUnicastInterface host ifi).subnetAddr := by
  simp only [bindServerToUnicastInterface, pton_ntop, ntop_text_inj, IfiInfo.Reaches]

lemma checkLocal_interFaceCount (k : ℕ) :
    (∃ ifi ∈ ifihead, ifi.Reaches sAddr) ∧
        (checkLocal host (ntop host sAddr) (bindServerToUnicastInterfaces host ifihead)
          k).interFaceCount < k + ifihead.length ∨
      (¬ ∃ ifi ∈ ifihead, ifi.Reaches sAddr) ∧
        (checkLocal host (ntop host sAddr) (bindServerToUnicastInterfaces host ifihead)
          k).interFaceCount = k + ifihead.length := by
  induction ifihead generalizing k with
  | nil => exact Or.inr ⟨by simp, rfl⟩
  | cons ifi ifihead ih =>
    have hreaches := @reaches_iff host sAddr ifi
    simp only [bindServerToUnicastInterfaces, List.map_cons, checkLocal, List.length_cons] at ih ⊢
    split_ifs with hsame hlocal
    · exact Or.inl ⟨⟨ifi, List.mem_cons_self, hreaches.mpr (Or.inl hsame)⟩,
        Nat.lt_add_of_pos_right (by omega)⟩
    · exact Or.inl ⟨⟨ifi, List.mem_cons_self, hreaches.mpr (Or.inr hlocal)⟩,
        Nat.lt_add_of_pos_right (by omega)⟩
    · have hnot : ¬ ifi.Reaches sAddr := fun h => (hreaches.mp h).elim hsame hlocal
      simp only [List.mem_cons, exists_eq_or_imp, hnot, false_or]
      rcases ih (k + 1) with ⟨hsome, hlt⟩ | ⟨hnone, heq⟩
      · exact Or.inl ⟨hsome, by omega⟩
      · exact Or.inr ⟨hnone, by omega⟩

lemma setDontRoute_interFaceCount (c : ChildSocket) :
    (setDontRoute c).interFaceCount = c.interFaceCount := by
  unfold setDontRoute
  split_ifs <;> rfl

theorem interFaceCount_lt_iff :
    (childSocket host ifihead sAddr).interFaceCount <
        (bindServerToUnicastInterfaces host ifihead).length ↔
      ∃ ifi ∈ ifihead, ifi.Reaches sAddr := by
  have hlen : (bindServerToUnicastInterfaces host ifihead).length = ifihead.length :=
    List.length_map _
  rw [childSocket, setDontRoute_interFaceCount, hlen]
  rcases @checkLocal_interFaceCount host ifihead sAddr 0 with ⟨hsome, hlt⟩ | ⟨hnone, heq⟩
  · exact iff_of_true (by omega) hsome
  · exact iff_of_false (by omega) hnone

lemma checkLocal_dontRoute (ipOfClient : DottedQuad) (servIpInfo : List ServerIntrIpInfo) (k : ℕ) :
    (checkLocal host ipOfClient servIpInfo k).dontRoute = false := by
  induction servIpInfo generalizing k with
  | nil => rfl
  | cons info servIpInfo ih =>
    unfold checkLocal
    split_ifs
    · rfl
    · rfl
    · exact ih (k + 1)

lemma setDontRoute_dontRoute {c : ChildSocket} (h : c.dontRoute = false) :
    (setDontRoute c).dontRoute = false := by
  unfold setDontRoute
  split_ifs
  · rfl
  · exact h

/-- A client that an interface reaches is routed, and for any other the number is that of no
interface. -/
theorem not_bindsAndRoutes (host : ByteOrder) (ifihead : List IfiInfo) (sAddr : Word) :
    ¬ BindsAndRoutes host ifihead sAddr := by
  rintro ⟨hlt, hroute⟩
  have hon := hroute.mpr (interFaceCount_lt_iff.mp hlt)
  rw [childSocket, setDontRoute_dontRoute (checkLocal_dontRoute _ _ 0)] at hon
  cases hon

/-- The server 10.0.0.5 with a mask of 24 bits: for the client 192.168.1.7 the child uses entry 1
of a table with one entry. -/
theorem not_bindsAndRoutes_lan :
    ¬ ∀ (host : ByteOrder) (ifihead : List IfiInfo), ifihead ≠ [] → ∀ sAddr : Word,
      BindsAndRoutes host ifihead sAddr := by
  intro h
  have hlt := (h .big [⟨0x0a000005, 0xffffff00⟩] (by simp) 0xc0a80107).1
  have hcount : (childSocket .big [⟨0x0a000005, 0xffffff00⟩] 0xc0a80107).interFaceCount = 1 := by
    decide +kernel
  rw [hcount] at hlt
  exact absurd hlt (lt_irrefl 1)

end TcpOverUdp
