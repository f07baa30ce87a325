import ConfProfile.Router.Send4
import ConfProfile.Tun.Masquerade
import ConfProfile.Lib.Run

/-!
# The router buffer (`dev_tun_recv`, `ipsend`, `send4`)

The router loop allocates one buffer and passes it to the `recv` of every
tunnel. `dev_tun_recv` parses the buffer, reads a packet into it and hands it to
`ipsend`, in this order: the version that `ipsend` dispatches on is the one of
whatever the buffer held before the read, and only when that was neither 4 nor
6 does `ipsend` look again. `tun_ctx_recv`, the sibling for the other tunnels,
reads first.

`devTunRecv_right_iff` says for one read when the packet is dispatched by its
own bytes, `dispatch_right_iff` for every sequence of reads.
-/

namespace ConfProfile

open ByteMem Run

/-- What the router calls in the tunnels: their settings for `masqueradeSrc` and
the function in `send`. -/
structure Tunnels where
  ctx : TunPtr → TunCtxPrivate
  send : TunPtr → Nat → MemM Int

/-- The branch that `ipsend` takes, with the destination that `send4` looks up. -/
inductive Branch where
  | ip4 (ip4 : BitVec 32)
  | ip6
  | neither
  deriving DecidableEq, Repr

/-- The tunnel that the routes give for a destination, or else the default one. -/
def tunFor (s : Router) (ip4 : BitVec 32) : Option TunPtr :=
  match send4Loop ip4 s.ip4Routes with
  | some t => some t
  | none => s.ip4DefaultTunCtx

/-- `send4` on the buffer. -/
def send4Buff (s : Router) (tuns : Tunnels) (p : OcpaIpPacket) : MemM (Branch × Int) := do
  let daddr ← rd32 16
  match tunFor s (ntohl daddr) with
  | some t => do
    masqueradeSrc (tuns.ctx t) p.pktLen
    let result ← tuns.send t p.pktLen
    return (.ip4 (ntohl daddr), result)
  | none =>
    -- "Destination tunnel is not ready, dropping a packet"
    return (.ip4 (ntohl daddr), 0)

/-- The first test of `ipsend`. -/
def detectUnknown (p : OcpaIpPacket) : MemM OcpaIpPacket :=
  if p.ipver = 0 then ipDetectIpver p else pure p

/-- `ipsend`, with the branch it takes. -/
def ipsend (s : Router) (tuns : Tunnels) (p : OcpaIpPacket) : MemM (Branch × Int) := do
  let p ← detectUnknown p
  if p.ipver = 4 then send4Buff s tuns p
  else if p.ipver = 6 then
    -- the call of `send6` is commented out
    pure (.ip6, 0)
  else pure (.neither, 0)

/-- `dev_tun_recv` with the packet that `read` delivers. -/
def devTunRecv (s : Router) (tuns : Tunnels) (len : Nat) (packet : List (BitVec 8)) :
    MemM (Branch × Int) := do
  let p ← ipParsePacket (newPacket len len)
  wrBytes 0 packet
  ipsend s tuns { p with pktLen := packet.length }

/-- `dev_tun_recv` when `read` fails. -/
def devTunRecvFails (len : Nat) : MemM Unit := do
  let _ ← ipParsePacket (newPacket len len)

/-- The size of the buffer that the router loop allocates. -/
def routerBuffLen : Nat := 1500

/-- `send4` on a packet of its own is `send4` on the buffer that holds it. -/
theorem send4_eq_tunFor (s : Router) (p : Ip4Packet) {m : Mem}
    (h : m.bytes 0 p.buff.length = p.buff) :
    send4 s p = (tunFor s (addr4 m 16)).map fun t => ⟨t, p.buff, p.pktLen⟩ := by
  have hbyte : ∀ i, (hi : i < 20) → p.byte i hi = m i := by
    intro i hi
    have hlen : i < p.buff.length := hi.trans_le (p.header.trans p.inside)
    have hget := Mem.getElem_bytes m 0 p.buff.length (i := i) (by rwa [Mem.length_bytes])
    rw [Nat.zero_add] at hget
    rw [← hget]
    unfold Ip4Packet.byte
    simp only [h, List.get_eq_getElem]
  have hdest : ntohl p.word16 = addr4 m 16 := by
    rw [ntohl_word16]
    unfold Ip4Packet.destination addr4
    rw [hbyte, hbyte, hbyte, hbyte]
  unfold send4 routed4
  rw [hdest]
  unfold tunFor
  cases send4Loop (addr4 m 16) s.ip4Routes <;> rfl

/-! ## The buffer over a run -/

/-- The buffer and what decides where a packet in it goes. -/
structure RouterBuff where
  buff : Mem
  router : Router
  tuns : Tunnels
  devTunCtx : TunCtxPrivate

/-- What happens to the buffer: a read from the dev tunnel, a read from another
tunnel, each with the packet it delivers or without one, and between them any
show of the routes and of the tunnels. -/
inductive BuffAct where
  | devRecv (packet : List (BitVec 8))
  | devRecvFails
  | tunRecv (t : TunPtr) (packet : List (BitVec 8))
  | tunRecvFails (t : TunPtr)
  | setup (router : Router) (tuns : Tunnels) (devTunCtx : TunCtxPrivate)

/-- One action. A `read` delivers no more than the buffer holds. -/
def buffStep (s : RouterBuff) : BuffAct → Option RouterBuff
  | .devRecv packet =>
    if packet.length ≤ routerBuffLen then
      some { s with buff := (devTunRecv s.router s.tuns routerBuffLen packet).mem s.buff }
    else none
  | .devRecvFails => some { s with buff := (devTunRecvFails routerBuffLen).mem s.buff }
  | .tunRecv t packet =>
    if packet.length ≤ routerBuffLen then
      some { s with
        buff := (tunCtxRecv (s.tuns.ctx t) s.devTunCtx routerBuffLen packet).mem s.buff }
    else none
  | .tunRecvFails _ => some s
  | .setup router tuns devTunCtx =>
    some { s with router := router, tuns := tuns, devTunCtx := devTunCtx }

/-- The version in a packet's own first byte. -/
def packetVersion (packet : List (BitVec 8)) : Nat := packet.head?.elim 0 ipverOf

/-- The destination in a packet's own bytes, when it has them. -/
def packetDestination (packet : List (BitVec 8)) : Option (BitVec 32) :=
  match packet.drop 16 with
  | a :: b :: c :: d :: _ => some (a ++ b ++ c ++ d)
  | _ => none

/-- A packet is dispatched according to its own bytes. -/
structure OwnBranch (packet : List (BitVec 8)) (b : Branch) : Prop where
  ip4 : packetVersion packet = 4 → ∃ d, packetDestination packet = some d ∧ b = .ip4 d
  ip6 : packetVersion packet = 6 → b = .ip6
  neither : packetVersion packet = 0 → b = .neither

/-- Every packet read from the dev tunnel is dispatched according to its own bytes. -/
def RightDispatch (s : RouterBuff) (a : BuffAct) (_ : RouterBuff) : Prop :=
  ∀ packet, a = .devRecv packet →
    OwnBranch packet ((devTunRecv s.router s.tuns routerBuffLen packet).val s.buff).1

/-- What the buffer holds before a read does not show a version other than the
packet's, and an IPv4 packet has its destination. -/
def GoodRead (buff : Mem) (packet : List (BitVec 8)) : Prop :=
  (ipverOf (buff 0) = 0 ∨ ipverOf (buff 0) = packetVersion packet) ∧
    (packetVersion packet = 4 → 20 ≤ packet.length)

/-! ## One read -/

theorem ipverOf_cases (b : BitVec 8) : ipverOf b = 0 ∨ ipverOf b = 4 ∨ ipverOf b = 6 := by
  unfold ipverOf
  split
  · exact Or.inr (Or.inl rfl)
  · split
    · exact Or.inr (Or.inr rfl)
    · exact Or.inl rfl

theorem packetVersion_cases (packet : List (BitVec 8)) :
    packetVersion packet = 0 ∨ packetVersion packet = 4 ∨ packetVersion packet = 6 := by
  unfold packetVersion
  cases packet with
  | nil => exact Or.inl rfl
  | cons b bs => exact ipverOf_cases b

/-- The version in the buffer after a read: the packet's, or the old one when
nothing was read. -/
theorem ipverOf_putBytes (m : Mem) (packet : List (BitVec 8)) :
    ipverOf (m.putBytes 0 packet 0) =
      if packet = [] then ipverOf (m 0) else packetVersion packet := by
  cases packet with
  | nil => rfl
  | cons b bs =>
    rw [if_neg (by simp), Mem.putBytes, Mem.putBytes_of_ne _ _ _ (Or.inl (by omega)),
      Function.update_self]
    rfl

/-- A packet with a header has the destination that `send4` finds in the buffer. -/
theorem packetDestination_eq (m : Mem) {packet : List (BitVec 8)} (h : 20 ≤ packet.length) :
    packetDestination packet = some (addr4 (m.putBytes 0 packet) 16) := by
  have hput : ∀ i, (hi : i < packet.length) → m.putBytes 0 packet i = packet[i] := by
    intro i hi
    have hget := Mem.putBytes_getElem m 0 packet hi
    rwa [Nat.zero_add] at hget
  unfold packetDestination addr4
  rw [List.drop_eq_getElem_cons (by omega), List.drop_eq_getElem_cons (by omega),
    List.drop_eq_getElem_cons (by omega), List.drop_eq_getElem_cons (by omega),
    hput 16 (by omega), hput 17 (by omega), hput 18 (by omega), hput 19 (by omega)]

theorem packetDestination_none {packet : List (BitVec 8)} (h : packet.length < 20) :
    packetDestination packet = none := by
  have hlen : (packet.drop 16).length < 4 := by
    rw [List.length_drop]
    omega
  unfold packetDestination
  split
  next heq =>
    rw [heq] at hlen
    simp only [List.length_cons] at hlen
    omega
  next => rfl

/-- The branch of a version. -/
def branchOf (version : Nat) (dest : BitVec 32) : Branch :=
  if version = 4 then .ip4 dest else if version = 6 then .ip6 else .neither

theorem send4Buff_branch (s : Router) (tuns : Tunnels) (p : OcpaIpPacket) (m : Mem) :
    ((send4Buff s tuns p).val m).1 = .ip4 (addr4 m 16) := by
  unfold send4Buff
  rw [MemM.val_bind, mem_rd32, val_rd32, ntohl_word32]
  split <;> rfl

theorem ipsend_branch (s : Router) (tuns : Tunnels) (p : OcpaIpPacket) (m : Mem) :
    ((ipsend s tuns p).val m).1 =
      branchOf ((detectUnknown p).val m).ipver (addr4 m 16) := by
  have hmem : (detectUnknown p).mem m = m := by
    unfold detectUnknown
    split
    · exact ipDetectIpver_mem m p
    · rfl
  unfold ipsend branchOf
  rw [MemM.val_bind, hmem]
  split
  · exact send4Buff_branch s tuns _ m
  · split <;> rfl

/-- `dev_tun_recv` dispatches on the version the buffer had before the read, or
on the packet's where the buffer had none. -/
theorem devTunRecv_branch (s : Router) (tuns : Tunnels) (packet : List (BitVec 8)) (m : Mem) :
    ((devTunRecv s tuns routerBuffLen packet).val m).1 =
      branchOf (if ipverOf (m 0) = 0 then packetVersion packet else ipverOf (m 0))
        (addr4 (m.putBytes 0 packet) 16) := by
  have hver := ipParsePacket_ipver m (newPacket routerBuffLen routerBuffLen)
  rw [if_pos (by decide)] at hver
  unfold devTunRecv
  rw [MemM.val_bind, ipParsePacket_mem, MemM.val_bind, mem_wrBytes, ipsend_branch]
  congr 1
  unfold detectUnknown
  simp only [hver]
  by_cases h0 : ipverOf (m 0) = 0
  · rw [if_pos h0, if_pos h0, ipDetectIpver_ipver]
    simp only [ipParsePacket_buffLen]
    rw [if_pos (by decide), ipverOf_putBytes]
    split
    next hnil => rw [h0, hnil]; rfl
    next => rfl
  · rw [if_neg h0, if_neg h0, MemM.val_pure]

/-- A packet read from the dev tunnel is dispatched according to its own bytes
exactly if the buffer did not show another version before. -/
theorem devTunRecv_right_iff (s : Router) (tuns : Tunnels) (packet : List (BitVec 8)) (m : Mem) :
    OwnBranch packet ((devTunRecv s tuns routerBuffLen packet).val m).1 ↔ GoodRead m packet := by
  rw [devTunRecv_branch]
  unfold GoodRead
  refine ⟨?_, ?_⟩
  · intro h
    refine ⟨?_, ?_⟩
    · by_contra hbad
      obtain ⟨hold, hne⟩ := not_or.mp hbad
      rw [if_neg hold] at h
      rcases (ipverOf_cases (m 0)).resolve_left hold with hv | hv <;> rw [hv] at h hne
      · -- the old version is 4, and the packet is none of IPv4
        rcases packetVersion_cases packet with hp | hp | hp
        · exact absurd (h.neither hp) (by simp [branchOf])
        · exact hne hp.symm
        · exact absurd (h.ip6 hp) (by simp [branchOf])
      · rcases packetVersion_cases packet with hp | hp | hp
        · exact absurd (h.neither hp) (by simp [branchOf])
        · obtain ⟨d, _, hd⟩ := h.ip4 hp
          exact absurd hd (by simp [branchOf])
        · exact hne hp.symm
    · intro h4
      obtain ⟨d, hd, _⟩ := h.ip4 h4
      by_contra hshort
      rw [packetDestination_none (by omega)] at hd
      exact absurd hd (by simp)
  · intro ⟨hver, hlen⟩
    have heq : (if ipverOf (m 0) = 0 then packetVersion packet else ipverOf (m 0)) =
        packetVersion packet := by
      split
      · rfl
      next h0 => exact hver.resolve_left h0
    rw [heq]
    refine ⟨?_, ?_, ?_⟩
    · intro h4
      refine ⟨_, packetDestination_eq m (hlen h4), ?_⟩
      rw [h4]
      rfl
    · intro h6
      rw [h6]
      rfl
    · intro h0
      rw [h0]
      rfl

/-! ## Every sequence of reads -/

/-- For every sequence of reads into the shared buffer, from any contents of it:
all packets from the dev tunnel are dispatched by their own bytes exactly if no
read of one finds another version in the buffer, nor an IPv4 packet too short
for a destination. -/
theorem dispatch_right_iff (s : RouterBuff) (as : List BuffAct) :
    Along buffStep RightDispatch s as ↔
      Along buffStep (fun s a _ => ∀ packet, a = .devRecv packet → GoodRead s.buff packet) s
        as := by
  refine @along_congr _ _ _ (fun _ => True) (fun _ _ => True) _ _ ?_ ?_ as s trivial
    (guarded_true s as)
  · intro _ _ _ _ _ _
    trivial
  · intro s a s' _ _ _
    refine forall_congr' fun packet => forall_congr' fun _ => ?_
    exact devTunRecv_right_iff s.router s.tuns packet s.buff

/-- A router without routes and a buffer of zeros. -/
def emptyBuff : RouterBuff where
  buff := fun _ => 0
  router := freshRouter
  tuns := ⟨fun _ => ⟨default, default, 0, false, default, false⟩, fun _ _ => pure 0⟩
  devTunCtx := ⟨default, default, 0, false, default, false⟩

/-- An IPv4 packet from 10.0.0.1 to 10.0.0.2, a header without a payload. -/
def exampleIp4 : List (BitVec 8) :=
  [0x45, 0, 0, 20, 0, 0, 0, 0, 64, 59, 0, 0, 10, 0, 0, 1, 10, 0, 0, 2]

/-- An IPv6 packet without a payload. -/
def exampleIp6 : List (BitVec 8) := [0x60, 0, 0, 0, 0, 0, 59, 64] ++ List.replicate 32 0

/-- After an IPv4 packet an IPv6 packet goes through `send4`. -/
theorem dispatch_ip6_through_send4 :
    ¬ Along buffStep RightDispatch emptyBuff [.devRecv exampleIp4, .devRecv exampleIp6] := by
  intro h
  have hsecond := (h _ (by rfl)).2 _ (by rfl)
  have hright := (devTunRecv_right_iff _ _ _ _).mp (hsecond.1 exampleIp6 rfl)
  have hver := hright.1
  revert hver
  decide

end ConfProfile
