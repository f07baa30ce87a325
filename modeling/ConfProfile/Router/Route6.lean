import ConfProfile.Lib.ByteMem
import ConfProfile.Router.Ops

/-!
# IPv6 routes (`route6`, `ip6_addr_match`)

An IPv6 address is 16 bytes behind a pointer, so a mask is split into whole bytes and the first
bits of the byte behind them, in `route6` to clear the host bits of a network and in
`ip6_addr_match` to compare. Both come to what the shifts of IPv4 do: `route6` stores the network
of the address (`route6Link_eq`), and a network matches the addresses that share its prefix
(`ip6AddrMatch_iff`). So does every link in the list, along every run of the calls that change it
(`ip6AddrMatch_run`).
-/

namespace ConfProfile

open ByteMem
open DescList (Desc upsert)
open NetPrefix (netOf ofBytes byteOf SharesPrefix)
open Run

/-- The address in 16 bytes, the first one most significant. -/
def addr6 (m : Mem) : BitVec 128 := ofBytes m 16

/-- `link->ip6` as bytes. -/
def Route6Link.bytes (r : Route6Link) : Mem := @byteOf 16 r.ip6

/-! ## The split of a mask -/

section mask

variable (netmask : BitVec 8)

/-- `matching_bytes`. -/
def matchingBytes : BitVec 8 := netmask >>> 3

/-- `partial_bitmask_shift`, an `int` that is cut to eight bits. -/
def partialBitmaskShift : BitVec 8 :=
  (8#32 - (netmask.setWidth 32 - (matchingBytes netmask).setWidth 32 <<< 3)).setWidth 8

/-- `partial_bitmask`, an `int` that is cut to eight bits. -/
def partialBitmask : BitVec 8 :=
  let shift := (partialBitmaskShift netmask).toNat
  ((0xff#32 >>> shift) <<< shift).setWidth 8

/-- `partial_matching_bytes`. -/
def partialMatchingBytes : BitVec 8 := if partialBitmask netmask ≠ 0x00 then 1 else 0

/-- `blank_bytes`. -/
def blankBytes : BitVec 8 :=
  let blankBytes := 16 - matchingBytes netmask
  if partialBitmask netmask ≠ 0x00 then blankBytes - 1 else blankBytes

theorem toNat_matchingBytes : (matchingBytes netmask).toNat = netmask.toNat / 8 := by
  rw [matchingBytes, BitVec.toNat_ushiftRight, Nat.shiftRight_eq_div_pow]

theorem toNat_partialBitmaskShift :
    (partialBitmaskShift netmask).toNat = 8 - netmask.toNat % 8 := by
  have hmask := netmask.isLt
  have hbits : ((matchingBytes netmask).setWidth 32 <<< 3).toNat = netmask.toNat / 8 * 8 := by
    rw [BitVec.toNat_shiftLeft, BitVec.toNat_setWidth, toNat_matchingBytes, Nat.shiftLeft_eq]
    omega
  have height : (8#32).toNat = 8 := rfl
  rw [partialBitmaskShift, BitVec.toNat_setWidth, BitVec.toNat_sub, BitVec.toNat_sub, hbits,
    BitVec.toNat_setWidth, height]
  omega

/-- The bitmask has the ones of the mask in the byte behind the whole ones. -/
theorem partialBitmask_eq :
    partialBitmask netmask = netOf (netmask.toNat % 8) (BitVec.allOnes 8) := by
  have hcut : ∀ shift ≤ 8, ((0xff#32 >>> shift) <<< shift).setWidth 8 =
      (BitVec.allOnes 8 >>> shift) <<< shift := by decide
  rw [partialBitmask, toNat_partialBitmaskShift]
  exact hcut _ (Nat.sub_le _ _)

theorem and_partialBitmask (b : BitVec 8) :
    b &&& partialBitmask netmask = netOf (netmask.toNat % 8) b := by
  rw [partialBitmask_eq, NetPrefix.and_netOf_allOnes (by omega)]

theorem partialBitmask_eq_zero : partialBitmask netmask = 0 ↔ netmask.toNat % 8 = 0 := by
  rw [partialBitmask_eq]
  constructor
  · intro hzero
    have hfirst : (netOf (netmask.toNat % 8) (BitVec.allOnes 8)).getMsbD 0 = false := by
      rw [hzero]
      rfl
    rw [NetPrefix.getMsbD_netOf (by omega)] at hfirst
    simpa using hfirst
  · intro hzero
    rw [hzero]
    exact NetPrefix.netOf_zero _

theorem toNat_partialMatchingBytes :
    (partialMatchingBytes netmask).toNat = if netmask.toNat % 8 = 0 then 0 else 1 := by
  have hzero := partialBitmask_eq_zero netmask
  unfold partialMatchingBytes
  split
  next hpart => rw [if_neg fun h => hpart (hzero.mpr h)]; rfl
  next hwhole => rw [if_pos (hzero.mp (not_not.mp hwhole))]; rfl

theorem partialMatchingBytes_pos : partialMatchingBytes netmask > 0 ↔ netmask.toNat % 8 ≠ 0 := by
  rw [gt_iff_lt, BitVec.lt_def, toNat_partialMatchingBytes]
  split
  next hzero => exact iff_of_false (Nat.lt_irrefl 0) (not_not.mpr hzero)
  next hbits => exact iff_of_true Nat.one_pos hbits

/-- The three parts are the address. -/
theorem toNat_blankBytes (h : netmask.toNat ≤ 128) : (blankBytes netmask).toNat =
    16 - (netmask.toNat / 8 + (partialMatchingBytes netmask).toNat) := by
  have hmatching := toNat_matchingBytes netmask
  have hsixteen : (16 : BitVec 8).toNat = 16 := rfl
  have hone : (1 : BitVec 8).toNat = 1 := rfl
  have hzero := partialBitmask_eq_zero netmask
  rw [toNat_partialMatchingBytes]
  unfold blankBytes
  dsimp only
  split
  next hpart =>
    have hbits : netmask.toNat % 8 ≠ 0 := fun hwhole => hpart (hzero.mpr hwhole)
    rw [if_neg hbits, BitVec.toNat_sub, BitVec.toNat_sub, hmatching, hsixteen, hone]
    omega
  next hwhole =>
    rw [if_pos (hzero.mp (not_not.mp hwhole)), BitVec.toNat_sub, hmatching, hsixteen]
    omega

end mask

/-! ## The address of a link -/

/-- What `route6` makes of `link->ip6`, where `mem` is what `malloc` gave. -/
def route6Ip6 (netmask : BitVec 8) (mem : Mem) : MemM Mem := do
  let matching ← rdBytes 0 (matchingBytes netmask).toNat
  let mem := mem.putBytes 0 matching
  let byte ← rd (matchingBytes netmask).toNat
  let mem := mem.putBytes (matchingBytes netmask).toNat
    (List.replicate (partialMatchingBytes netmask).toNat (byte &&& partialBitmask netmask))
  return mem.putBytes ((matchingBytes netmask).toNat + (partialMatchingBytes netmask).toNat)
    (List.replicate (blankBytes netmask).toNat 0x00)

/-- `netmask` of `route6`. -/
def route6Netmask (mask : Nat) : BitVec 8 :=
  let mask := if mask > 128 then 128 else mask
  BitVec.ofNat 8 mask

/-- The link that `route6` builds. -/
def route6Link (mem ip6 : Mem) (mask : Nat) (tunCtx : TunPtr) : Route6Link :=
  ⟨addr6 ((route6Ip6 (route6Netmask mask) mem).val ip6), (route6Netmask mask).toNat, tunCtx⟩

theorem toNat_route6Netmask (mask : Nat) : (route6Netmask mask).toNat = min mask 128 := by
  unfold route6Netmask
  rw [BitVec.toNat_ofNat]
  split <;> omega

/-- Every byte of the link is a byte of the address with the host bits cleared. -/
theorem route6Ip6_val {netmask : BitVec 8} (h : netmask.toNat ≤ 128) (mem ip6 : Mem) {i : Nat}
    (hi : i < 16) : (route6Ip6 netmask mem).val ip6 i =
      netOf (min 8 (netmask.toNat - 8 * i)) (ip6 i) := by
  have hmatching := toNat_matchingBytes netmask
  have hmiddle := toNat_partialMatchingBytes netmask
  have hblank := toNat_blankBytes netmask h
  unfold route6Ip6
  simp only [MemM.val_bind, val_rdBytes, mem_rdBytes, MemM.val_rd, MemM.mem_rd, MemM.val_pure,
    and_partialBitmask, hmatching]
  by_cases hlt : i < netmask.toNat / 8
  · -- a byte that `memcpy` takes over
    have hwhole : min 8 (netmask.toNat - 8 * i) = 8 := by omega
    have hget := Mem.putBytes_getElem mem 0 (ip6.bytes 0 (netmask.toNat / 8))
      (i := i) (by rwa [Mem.length_bytes])
    rw [Mem.putBytes_of_ne _ _ _ (Or.inl (by omega)), Mem.putBytes_of_ne _ _ _ (Or.inl hlt), hwhole,
      NetPrefix.netOf_width]
    rwa [Nat.zero_add, Mem.getElem_bytes, Nat.zero_add] at hget
  by_cases hcut : i = netmask.toNat / 8 ∧ netmask.toNat % 8 ≠ 0
  · -- the byte that the mask cuts
    obtain ⟨rfl, hpart⟩ := hcut
    have hbits : min 8 (netmask.toNat - 8 * (netmask.toNat / 8)) = netmask.toNat % 8 := by omega
    rw [if_neg hpart] at hmiddle
    rw [Mem.putBytes_of_ne _ _ _ (Or.inl (by omega)),
      Mem.putBytes_replicate _ _ _ (by omega) (by omega), hbits]
  · -- a blank byte
    have hnone : min 8 (netmask.toNat - 8 * i) = 0 := by omega
    have hbehind : netmask.toNat / 8 + (partialMatchingBytes netmask).toNat ≤ i := by
      rw [hmiddle]
      split <;> omega
    rw [Mem.putBytes_replicate _ _ _ hbehind (by omega), hnone, NetPrefix.netOf_zero]
    rfl

/-- The link is at the network of the address, whatever was in its memory. -/
theorem route6Link_eq (mem ip6 : Mem) (mask : Nat) (t : TunPtr) :
    route6Link mem ip6 mask t = ⟨netOf (min mask 128) (addr6 ip6), min mask 128, t⟩ := by
  have hmask : (route6Netmask mask).toNat ≤ 128 := by
    rw [toNat_route6Netmask]
    exact Nat.min_le_right _ _
  have hip6 : addr6 ((route6Ip6 (route6Netmask mask) mem).val ip6) =
      netOf (route6Netmask mask).toNat (addr6 ip6) := by
    refine Eq.trans ?_ (NetPrefix.netOf_ofBytes (n := 16) hmask ip6).symm
    exact NetPrefix.ofBytes_inj.mpr fun i hi => route6Ip6_val hmask mem ip6 hi
  rw [route6Link, hip6, toNat_route6Netmask]

theorem route6Link_net (mem ip6 : Mem) (mask : Nat) (t : TunPtr) :
    (route6Link mem ip6 mask t).mask ≤ 128 ∧
      netOf (route6Link mem ip6 mask t).mask (route6Link mem ip6 mask t).ip6
        = (route6Link mem ip6 mask t).ip6 := by
  rw [route6Link_eq]
  exact ⟨Nat.min_le_right _ _, NetPrefix.netOf_self _ _⟩

/-- The byte behind the whole ones is read even where there is none: from a mask of 128 on, `route6`
reads one byte behind the address. -/
theorem route6Ip6_inside (mask : Nat) (mem ip6 : Mem) :
    Inside 16 (route6Ip6 (route6Netmask mask) mem) ip6 ↔ mask < 128 := by
  have hmask := toNat_route6Netmask mask
  have hmatching := toNat_matchingBytes (route6Netmask mask)
  have hcopy : Inside 16 (rdBytes 0 (matchingBytes (route6Netmask mask)).toNat) ip6 :=
    inside_rdBytes 16 ip6 0 (by omega)
  unfold route6Ip6
  simp only [inside_bind, mem_rdBytes, inside_rd, inside_pure, and_true, hcopy, true_and]
  omega

/-! ## Matching -/

/-- The loop of `ip6_addr_match`, from byte `i` on. -/
def ip6AddrMatchLoop (network testIp : Mem) (i : Nat) : Nat → Bool
  | 0 => true
  | left + 1 =>
    if network i ≠ testIp i then false else ip6AddrMatchLoop network testIp (i + 1) left

/-- `ip6_addr_match`. -/
def ip6AddrMatch (network : Mem) (netmask : BitVec 8) (testIp : Mem) : Bool :=
  let matchingBytes := (matchingBytes netmask).toNat
  if ip6AddrMatchLoop network testIp 0 matchingBytes = false then false
  else if partialMatchingBytes netmask > 0 then
    if network matchingBytes ≠ testIp matchingBytes &&& partialBitmask netmask then false
    else true
  else true

theorem ip6AddrMatchLoop_eq_true (network testIp : Mem) (i left : Nat) :
    ip6AddrMatchLoop network testIp i left = true ↔
      ∀ j, i ≤ j → j < i + left → network j = testIp j := by
  induction left generalizing i with
  | zero => exact iff_of_true rfl fun j hj hlt => absurd hlt (by omega)
  | succ left ih =>
    rw [ip6AddrMatchLoop]
    split
    next hne => exact iff_of_false Bool.false_ne_true fun h => hne (h i le_rfl (by omega))
    next heq =>
      rw [ih]
      constructor
      · intro h j hj hlt
        rcases Nat.eq_or_lt_of_le hj with rfl | hj
        · exact not_not.mp heq
        · exact h j hj (by omega)
      · intro h j hj hlt
        exact h j (by omega) (by omega)

/-- What is compared: the whole bytes, and the byte behind them if the mask cuts it. -/
theorem ip6AddrMatch_eq_true (network : Mem) (netmask : BitVec 8) (testIp : Mem) :
    ip6AddrMatch network netmask testIp = true ↔
      (∀ i < netmask.toNat / 8, network i = testIp i) ∧
        (netmask.toNat % 8 ≠ 0 → network (netmask.toNat / 8) =
          netOf (netmask.toNat % 8) (testIp (netmask.toNat / 8))) := by
  have hloop : ip6AddrMatchLoop network testIp 0 (netmask.toNat / 8) = true ↔
      ∀ i < netmask.toNat / 8, network i = testIp i := by
    rw [ip6AddrMatchLoop_eq_true, Nat.zero_add]
    exact forall_congr' fun i => forall_prop_of_true (Nat.zero_le i)
  have hpos := partialMatchingBytes_pos netmask
  rw [← hloop]
  unfold ip6AddrMatch
  dsimp only
  rw [toNat_matchingBytes, and_partialBitmask]
  split
  next hdiffers =>
    exact iff_of_false Bool.false_ne_true fun h => Bool.eq_false_iff.mp hdiffers h.1
  next hsame =>
    rw [and_iff_right (eq_true_of_ne_false hsame)]
    split
    next hcut =>
      rw [forall_prop_of_true (hpos.mp hcut)]
      split
      next hne => exact iff_of_false Bool.false_ne_true hne
      next heq => exact iff_of_true rfl (not_not.mp heq)
    next hwhole => exact iff_of_true rfl fun hbits => absurd (hpos.mpr hbits) hwhole

/-- A network has no host bits in the byte that its mask cuts. -/
theorem netOf_cut_byte {network : Mem} {netmask : BitVec 8} (hmask : netmask.toNat ≤ 128)
    (hnet : netOf netmask.toNat (addr6 network) = addr6 network) (hbits : netmask.toNat % 8 ≠ 0) :
    netOf (netmask.toNat % 8) (network (netmask.toNat / 8)) = network (netmask.toNat / 8) := by
  have hmiddle : min 8 (netmask.toNat - 8 * (netmask.toNat / 8)) = netmask.toNat % 8 := by omega
  rw [addr6, NetPrefix.netOf_ofBytes hmask, NetPrefix.ofBytes_inj] at hnet
  have hbyte := hnet (netmask.toNat / 8) (by omega)
  rwa [hmiddle] at hbyte

/-- A network matches exactly the addresses that share its prefix. -/
theorem ip6AddrMatch_iff {network : Mem} {netmask : BitVec 8} (hmask : netmask.toNat ≤ 128)
    (hnet : netOf netmask.toNat (addr6 network) = addr6 network) (testIp : Mem) :
    ip6AddrMatch network netmask testIp = true ↔
      SharesPrefix netmask.toNat (addr6 network) (addr6 testIp) := by
  have hshares : SharesPrefix netmask.toNat (addr6 network) (addr6 testIp) ↔ _ :=
    NetPrefix.shares_ofBytes_iff (n := 16) hmask
  rw [hshares, ip6AddrMatch_eq_true]
  refine and_congr_right fun _ => ?_
  by_cases hbits : netmask.toNat % 8 = 0
  · rw [hbits]
    exact iff_of_true (absurd rfl) fun _ hlt => absurd hlt (Nat.not_lt_zero _)
  · rw [forall_prop_of_true hbits]
    exact NetPrefix.netOf_eq_iff_shares (by omega) (netOf_cut_byte hmask hnet hbits)

/-- The bytes of a link are its address. -/
@[simp] theorem addr6_bytes (r : Route6Link) : addr6 r.bytes = r.ip6 :=
  NetPrefix.ofBytes_byteOf (n := 16) r.ip6

/-- A link at a network matches the addresses in it. -/
theorem Route6Link.match_iff {r : Route6Link} (h : r.mask ≤ 128 ∧ netOf r.mask r.ip6 = r.ip6)
    (testIp : Mem) : ip6AddrMatch r.bytes (BitVec.ofNat 8 r.mask) testIp = true ↔
      SharesPrefix r.mask r.ip6 (addr6 testIp) := by
  obtain ⟨hmask, hnet⟩ := h
  have hnetmask : (BitVec.ofNat 8 r.mask).toNat = r.mask := by
    rw [BitVec.toNat_ofNat]
    omega
  have hmatch := @ip6AddrMatch_iff r.bytes (BitVec.ofNat 8 r.mask) (by omega)
  rw [hnetmask, addr6_bytes] at hmatch
  exact hmatch hnet testIp

/-- What `route6` makes of a network matches an address if and only if the first `mask` bits of the
two are the same. -/
theorem ip6AddrMatch_route6Link {mask : Nat} (hmask : mask ≤ 128) (mem ip6 testIp : Mem)
    (t : TunPtr) :
    ip6AddrMatch (route6Link mem ip6 mask t).bytes
        (BitVec.ofNat 8 (route6Link mem ip6 mask t).mask) testIp = true ↔
      SharesPrefix mask (addr6 ip6) (addr6 testIp) := by
  rw [Route6Link.match_iff (route6Link_net mem ip6 mask t), route6Link_eq, Nat.min_eq_left hmask]
  exact NetPrefix.shares_netOf_iff hmask _ _

/-- A mask of 14 bits compares six bits of the second byte. -/
theorem ip6AddrMatch_route6Link_14 :
    ip6AddrMatch (route6Link (fun _ => 0xff) (fun _ => 0x21) 14 1).bytes
      (BitVec.ofNat 8 (route6Link (fun _ => 0xff) (fun _ => 0x21) 14 1).mask)
      (fun i => if i = 0 then 0x21 else 0x23) = true :=
  (ip6AddrMatch_route6Link (by decide) (fun _ => 0xff) (fun _ => 0x21) _ 1).mpr (by decide)

/-! ## The list of routes -/

/-- `memcmp` of the first `n` bytes: the first ones that differ decide. -/
def memcmp (a b : Mem) : Nat → Int
  | 0 => 0
  | n + 1 =>
    let front := memcmp a b n
    if front ≠ 0 then front else (a n).toNat - (b n).toNat

/-- The insertion loop of `route6`. -/
def route6Loop (link : Route6Link) : Int → Refs TunPtr →
    List Route6Link → List Route6Link → RouteWalk Route6Link :=
  insertLoop Route6Link.tunCtx
    (fun curr => memcmp curr.bytes link.bytes 16 < 0 ∨
      (memcmp curr.bytes link.bytes 16 = 0 ∧ curr.mask < link.mask))
    (fun curr => memcmp curr.bytes link.bytes 16 = 0 ∧ curr.mask = link.mask) link

/-- `route6`, where `mem` is what `malloc` gave. As in `route4`, only the insertion in front of
another link is counted. -/
def route6 (s : Router) (mem ip6 : Mem) (mask : Nat) (tunCtx : TunPtr) : Router :=
  let link := route6Link mem ip6 mask tunCtx
  let refs := s.refs.refGet tunCtx
  match s.ip6Routes with
  | [] => { s with ip6Routes := [link], refs := refs, routesUpdated := true }
  | curr :: next =>
    let w := route6Loop link s.ip6RoutesCount refs [] (curr :: next)
    { s with
      ip6Routes := w.routes, ip6RoutesCount := w.count, refs := w.refs, routesUpdated := w.updated }

/-- The removal loop of `unroute6`. The mask is not looked at. -/
def unroute6Loop (ip6 : Mem) (count : Int) (refs : Refs TunPtr) (updated : Bool) :
    List Route6Link → List Route6Link → RouteWalk Route6Link
  | prev, [] => ⟨prev.reverse, count, refs, updated⟩
  | prev, curr :: next =>
    let cmpAddrs := memcmp curr.bytes ip6 16
    if cmpAddrs = 0 then
      -- remove this link
      ⟨prev.reverse ++ next, count - 1, refs.refPut curr.tunCtx, true⟩
    else if cmpAddrs < 0 then
      -- no such route
      ⟨prev.reverse ++ curr :: next, count, refs, updated⟩
    else unroute6Loop ip6 count refs updated (curr :: prev) next

/-- `unroute6`. -/
def unroute6 (s : Router) (ip6 : Mem) (_mask : Nat) : Router :=
  let w := unroute6Loop ip6 s.ip6RoutesCount s.refs s.routesUpdated [] s.ip6Routes
  { s with
    ip6Routes := w.routes, ip6RoutesCount := w.count, refs := w.refs, routesUpdated := w.updated }

/-- `default6`. -/
def default6 (s : Router) (tunCtx : TunPtr) : Router :=
  let refs :=
    match s.ip6DefaultTunCtx with
    | some old => s.refs.refPut old
    | none => s.refs
  { s with ip6DefaultTunCtx := some tunCtx, refs := refs.refGet tunCtx, routesUpdated := true }

/-- `memcmp` compares addresses as numbers. -/
theorem memcmp_ofBytes (a b : Mem) (n : Nat) :
    (memcmp a b n < 0 ↔ ofBytes a n < ofBytes b n) ∧
      (memcmp a b n = 0 ↔ ofBytes a n = ofBytes b n) := by
  induction n with
  | zero => exact ⟨iff_of_false (lt_irrefl 0) (lt_irrefl 0), iff_of_true rfl rfl⟩
  | succ n ih =>
    obtain ⟨hlt, heq⟩ := ih
    rw [NetPrefix.ofBytes_succ_lt_iff, NetPrefix.ofBytes_succ_inj, ← hlt, ← heq, memcmp]
    split
    next hfront => simp [hfront]
    next hfront =>
      have hzero : memcmp a b n = 0 := not_not.mp hfront
      rw [BitVec.lt_def, ← BitVec.toNat_inj]
      omega

/-- The order of the list: by address, then by prefix length. -/
def Route6Link.key (r : Route6Link) : ℕ ×ₗ ℕ := toLex (r.ip6.toNat, r.mask)

theorem Route6Link.key_lt_key {r r' : Route6Link} : r.key < r'.key ↔
    memcmp r.bytes r'.bytes 16 < 0 ∨ (memcmp r.bytes r'.bytes 16 = 0 ∧ r.mask < r'.mask) := by
  obtain ⟨hlt, heq⟩ := memcmp_ofBytes r.bytes r'.bytes 16
  rw [hlt, heq, ← addr6, ← addr6, addr6_bytes, addr6_bytes, Route6Link.key, Route6Link.key,
    Prod.Lex.toLex_lt_toLex, BitVec.toNat_inj, BitVec.lt_def]

theorem Route6Link.key_eq_key {r r' : Route6Link} :
    r.key = r'.key ↔ memcmp r.bytes r'.bytes 16 = 0 ∧ r.mask = r'.mask := by
  obtain ⟨-, heq⟩ := memcmp_ofBytes r.bytes r'.bytes 16
  rw [heq, ← addr6, ← addr6, addr6_bytes, addr6_bytes, Route6Link.key, Route6Link.key, toLex_inj,
    Prod.mk.injEq, BitVec.toNat_inj]

/-- `route6` inserts or overwrites one key. -/
theorem route6_frame (s : Router) (mem ip6 : Mem) (mask : Nat) (t : TunPtr) :
    ∃ count refs,
      route6 s mem ip6 mask t =
        { s with
          ip6Routes := upsert Route6Link.key (route6Link mem ip6 mask t) s.ip6Routes
          ip6RoutesCount := count, refs := refs, routesUpdated := true } := by
  unfold route6
  cases hl : s.ip6Routes with
  | nil => exact ⟨_, _, rfl⟩
  | cons curr next =>
    obtain ⟨count, refs, he⟩ := insertLoop_upsert Route6Link.key Route6Link.tunCtx
      (fun _ => Route6Link.key_lt_key.symm) (fun _ => Route6Link.key_eq_key.symm)
      s.ip6RoutesCount (s.refs.refGet t) (List.cons_ne_nil curr next)
    refine ⟨count, refs, ?_⟩
    dsimp only
    rw [route6Loop, he]

/-- `unroute6` only leaves links out. -/
theorem unroute6Loop_sublist (ip6 : Mem) (count : Int) (refs : Refs TunPtr) (updated : Bool)
    (l prev : List Route6Link) :
    (unroute6Loop ip6 count refs updated prev l).routes.Sublist (prev.reverse ++ l) := by
  induction l generalizing prev with
  | nil =>
    rw [List.append_nil]
    exact List.Sublist.refl _
  | cons curr next ih =>
    unfold unroute6Loop
    dsimp only
    split
    next =>
      exact (List.Sublist.refl _).append (List.sublist_cons_self curr next)
    next =>
      split
      next => exact List.Sublist.refl _
      next =>
        have hrest := ih (curr :: prev)
        rwa [List.reverse_cons, List.append_assoc, List.singleton_append] at hrest

/-- Strictly descending, and every link at a network. -/
structure Table6 (l : List Route6Link) : Prop where
  desc : Desc Route6Link.key l
  net : ∀ r ∈ l, r.mask ≤ 128 ∧ netOf r.mask r.ip6 = r.ip6

theorem table6_nil : Table6 [] := ⟨DescList.desc_nil, by simp⟩

theorem Table6.sublist {l₁ l₂ : List Route6Link} (h : Table6 l₂) (hs : l₁.Sublist l₂) :
    Table6 l₁ :=
  ⟨h.desc.sublist hs, fun r hr => h.net r (hs.subset hr)⟩

theorem table6_route6 {s : Router} (h : Table6 s.ip6Routes) (mem ip6 : Mem) (mask : Nat)
    (t : TunPtr) : Table6 (route6 s mem ip6 mask t).ip6Routes := by
  obtain ⟨count, refs, he⟩ := route6_frame s mem ip6 mask t
  rw [he]
  refine ⟨DescList.desc_upsert h.desc, fun r hr => ?_⟩
  rcases (DescList.mem_upsert h.desc).mp hr with rfl | ⟨hr', -⟩
  · exact route6Link_net mem ip6 mask t
  · exact h.net r hr'

/-- A call on a router context that has IPv6 routes. -/
inductive Op6 where
  | route6 (mem ip6 : Mem) (mask : Nat) (tunCtx : TunPtr)
  | unroute6 (ip6 : Mem) (mask : Nat)
  | default6 (tunCtx : TunPtr)
  | other (op : Op)

/-- One call. -/
def step6 (s : Router) : Op6 → Option Router
  | .route6 mem ip6 mask t => some (route6 s mem ip6 mask t)
  | .unroute6 ip6 mask => some (unroute6 s ip6 mask)
  | .default6 t => some (default6 s t)
  | .other op => step s op

theorem table6_step6 {s s' : Router} {op : Op6} (hs : Table6 s.ip6Routes)
    (h : step6 s op = some s') : Table6 s'.ip6Routes := by
  cases op with
  | route6 mem ip6 mask t =>
    obtain rfl : route6 s mem ip6 mask t = s' := Option.some.inj h
    exact table6_route6 hs mem ip6 mask t
  | unroute6 ip6 mask =>
    obtain rfl : unroute6 s ip6 mask = s' := Option.some.inj h
    exact hs.sublist (unroute6Loop_sublist ip6 _ _ _ s.ip6Routes [])
  | default6 t =>
    obtain rfl : default6 s t = s' := Option.some.inj h
    exact hs
  | other op => exact hs.sublist (ip6Routes_sublist_step h)

/-- Along every run from a context without IPv6 routes, a route matches exactly the addresses in its
network. -/
theorem ip6AddrMatch_run {s s' : Router} (hs : s.ip6Routes = []) {ops : List Op6}
    (h : run step6 s ops = some s') {r : Route6Link} (hr : r ∈ s'.ip6Routes) (testIp : Mem) :
    ip6AddrMatch r.bytes (BitVec.ofNat 8 r.mask) testIp = true ↔
      SharesPrefix r.mask r.ip6 (addr6 testIp) := by
  have htable : Table6 s'.ip6Routes := by
    refine inv_run (I := fun s => Table6 s.ip6Routes) (fun _ _ _ => table6_step6) ops ?_ h
    rw [hs]
    exact table6_nil
  exact Route6Link.match_iff (htable.net r hr) testIp

end ConfProfile
