import ConfProfile.Usernat.Packet

/-!
# The link table (`find_link4`, `create_link`, `usernat_set_pid_for_link`)

`links` is a list that new links are put in front of. A lookup takes the first
link that matches; the walk of `usernat_set_pid_for_link` lets the links with
`socat_pid == -1` age as it passes them, takes out those that have no cycle left,
and stops at the link it looks for.

What a link is found by never changes (`LinkEntry.ident`): the walk only takes
links out (`setPidLoop_ident`), and hands the queue of the link it finds to its
caller (`setPidLoop_found`).
-/

namespace ConfProfile

open ByteMem

/-- A link in the table. `ptr` is its address; `serial` is no part of the program:
it tells a link from a later one at the same address. -/
structure LinkEntry where
  ptr : Nat
  serial : Nat
  link : NatLink
  deriving DecidableEq, Repr

/-- The flow that a link belongs to. -/
structure LinkFlow where
  linkType : BitVec 8
  srcAddr : BitVec 32
  srcPort : BitVec 16
  dstAddr : BitVec 32
  dstPort : BitVec 16
  deriving DecidableEq, Repr

def NatLink.flow (link : NatLink) : LinkFlow :=
  ⟨link.linkType, link.realSrcAddr, link.realSrcPort, link.realDstAddr, link.realDstPort⟩

/-! ## Looking up -/

/-- `find_link4`, with `instance->local4` as the local address. -/
def findLink4 (inst : UsernatCtx) (linkType : BitVec 8) (key : LinkKey) :
    List LinkEntry → Option LinkEntry
  | [] => none
  | curr :: rest =>
    if curr.link.linkType &&& natLinkIp6 ≠ 0 then
      -- this is IPv6 link, skipping
      findLink4 inst linkType key rest
    else if curr.link.linkType ≠ linkType then
      -- this is IPv4 link, but protocol doesn't match
      findLink4 inst linkType key rest
    else if ¬ (curr.link.realSrcAddr = inst.local4 ∧ key.localPort = curr.link.realSrcPort) then
      -- local address doesn't match
      findLink4 inst linkType key rest
    else if key.isIncoming then
      if ¬ (inst.remote4 = key.remoteAddr ∧ key.remotePort = curr.link.hopPort) then
        findLink4 inst linkType key rest
      else some curr
    else if ¬ (curr.link.realDstAddr = key.remoteAddr ∧ key.remotePort = curr.link.realDstPort) then
      findLink4 inst linkType key rest
    else some curr

/-- The remote end of the link fits the key. -/
def NatLink.RemoteMatches (inst : UsernatCtx) (key : LinkKey) (link : NatLink) : Prop :=
  if key.isIncoming then inst.remote4 = key.remoteAddr ∧ key.remotePort = link.hopPort
  else link.realDstAddr = key.remoteAddr ∧ key.remotePort = link.realDstPort

instance (inst : UsernatCtx) (key : LinkKey) (link : NatLink) :
    Decidable (link.RemoteMatches inst key) :=
  inferInstanceAs (Decidable
    (if key.isIncoming then inst.remote4 = key.remoteAddr ∧ key.remotePort = link.hopPort
    else link.realDstAddr = key.remoteAddr ∧ key.remotePort = link.realDstPort))

/-- The link fits the key. -/
structure NatLink.Matches (inst : UsernatCtx) (linkType : BitVec 8) (key : LinkKey)
    (link : NatLink) : Prop where
  ip4 : link.linkType &&& natLinkIp6 = 0
  type : link.linkType = linkType
  addr : link.realSrcAddr = inst.local4
  port : key.localPort = link.realSrcPort
  remote : link.RemoteMatches inst key

instance (inst : UsernatCtx) (linkType : BitVec 8) (key : LinkKey) (link : NatLink) :
    Decidable (link.Matches inst linkType key) :=
  decidable_of_iff (link.linkType &&& natLinkIp6 = 0 ∧ link.linkType = linkType ∧
      link.realSrcAddr = inst.local4 ∧ key.localPort = link.realSrcPort ∧
      link.RemoteMatches inst key)
    ⟨fun h => ⟨h.1, h.2.1, h.2.2.1, h.2.2.2.1, h.2.2.2.2⟩,
      fun h => ⟨h.ip4, h.type, h.addr, h.port, h.remote⟩⟩

theorem findLink4_cons (inst : UsernatCtx) (linkType : BitVec 8) (key : LinkKey)
    (curr : LinkEntry) (rest : List LinkEntry) :
    findLink4 inst linkType key (curr :: rest) =
      if curr.link.Matches inst linkType key then some curr
      else findLink4 inst linkType key rest := by
  rw [findLink4]
  split
  next hip6 => rw [if_neg fun hm => hip6 hm.ip4]
  next hip6 =>
    split
    next htype => rw [if_neg fun hm => htype hm.type]
    next htype =>
      split
      next hlocal => rw [if_neg fun hm => hlocal ⟨hm.addr, hm.port⟩]
      next hlocal =>
        rw [not_not] at hip6 htype hlocal
        have hmatch : curr.link.Matches inst linkType key ↔ curr.link.RemoteMatches inst key :=
          ⟨fun hm => hm.remote, fun hr => ⟨hip6, htype, hlocal.1, hlocal.2, hr⟩⟩
        unfold NatLink.RemoteMatches at hmatch
        simp only [hmatch]
        by_cases hin : key.isIncoming = true
        · simp only [hin, if_true]
          exact ite_not _ _ _
        · simp only [hin]
          exact ite_not _ _ _

/-- A lookup finds the first link that fits. -/
theorem findLink4_eq_find (inst : UsernatCtx) (linkType : BitVec 8) (key : LinkKey)
    (links : List LinkEntry) :
    findLink4 inst linkType key links =
      links.find? fun e => decide (e.link.Matches inst linkType key) := by
  induction links with
  | nil => rfl
  | cons curr rest ih =>
    rw [findLink4_cons, ih, List.find?_cons]
    by_cases hm : curr.link.Matches inst linkType key
    · simp only [hm, if_true, decide_true]
    · simp only [hm, if_false, decide_false]

/-- The link whose memory is at `ptr`. -/
def entryAt (ptr : Nat) (links : List LinkEntry) : Option LinkEntry :=
  links.find? fun e => e.ptr = ptr

/-! ## Creating a link -/

/-- The memory of a link behind `memset`. -/
def zeroLink : NatLink where
  linkType := 0
  sockAccept := 0
  sockConnect := 0
  enqueuePackets := false
  packetsQueue := none
  socatPid := 0
  hopPort := 0
  cyclesToLive := 0
  realSrcAddr := 0
  realSrcPort := 0
  realDstAddr := 0
  realDstPort := 0

/-- What the kernel and the allocator answer while a link is created: the sockets,
the port at which `sock_accept` was bound, the address of the link, and whether
there was memory for its queue. -/
structure LinkAnswer where
  sockAccept : Int
  sockConnect : Int
  hopPort : BitVec 16
  ptr : Nat
  queueInit : Bool
  deriving DecidableEq, Repr

/-- `link_init`, when it gets its memory. -/
def linkInit (queueInit : Bool) : NatLink :=
  { zeroLink with
    enqueuePackets := true
    packetsQueue := if queueInit then some [] else none }

/-- The link that both `create_link` functions fill in: `offs` is where the
payload header of the packet is. -/
def createdLink (linkType : BitVec 8) (m : Mem) (offs : Nat) (answer : LinkAnswer) : NatLink :=
  { linkInit answer.queueInit with
    linkType := linkType
    realSrcAddr := ntohl (m.word32 12)
    realSrcPort := ntohs (m.word16 offs)
    realDstAddr := ntohl (m.word32 16)
    realDstPort := ntohs (m.word16 (offs + 2))
    sockAccept := answer.sockAccept
    sockConnect := answer.sockConnect
    hopPort := answer.hopPort }

/-- The `syn` flag of the TCP header at `offs`. -/
def tcpSyn (m : Mem) (offs : Nat) : Bool := (m (offs + 13)).getLsbD 1

/-- `create_link_tcp4`. There is no answer when one of its calls fails. -/
def createLinkTcp4 (m : Mem) (offs : Nat) (answer : Option LinkAnswer) : Option NatLink :=
  if tcpSyn m offs = false then
    -- create a link on SYN packet only
    none
  else answer.map (createdLink natLinkTcp4 m offs)

/-- `create_link_udp4`. -/
def createLinkUdp4 (m : Mem) (offs : Nat) (answer : Option LinkAnswer) : Option NatLink :=
  answer.map (createdLink natLinkUdp4 m offs)

/-- `create_link`. -/
def createLink (linkType : BitVec 8) (m : Mem) (offs : Nat) (answer : Option LinkAnswer) :
    Option NatLink :=
  if linkType = natLinkTcp4 then createLinkTcp4 m offs answer
  else if linkType = natLinkUdp4 then createLinkUdp4 m offs answer
  else none

/-- Every link that is created is filled in from the packet. -/
theorem createLink_eq_some {linkType : BitVec 8} {m : Mem} {offs : Nat}
    {answer : Option LinkAnswer} {link : NatLink}
    (h : createLink linkType m offs answer = some link) :
    ∃ a, answer = some a ∧ link = createdLink linkType m offs a := by
  have hmap : ∀ t, answer.map (createdLink t m offs) = some link →
      ∃ a, answer = some a ∧ link = createdLink t m offs a := by
    intro t ht
    obtain ⟨a, ha, hlink⟩ := Option.map_eq_some_iff.mp ht
    exact ⟨a, ha, hlink.symm⟩
  unfold createLink createLinkTcp4 createLinkUdp4 at h
  split at h
  next htcp =>
    split at h
    · cases h
    · rw [htcp]
      exact hmap _ h
  next =>
    split at h
    next hudp =>
      rw [hudp]
      exact hmap _ h
    next => cases h

/-! ## Setting the pid -/

/-- Decrease `cycles_to_live` of a link with pid == -1. -/
def NatLink.age (link : NatLink) : NatLink :=
  if link.cyclesToLive > 0 ∧ link.socatPid = -1 then
    { link with cyclesToLive := link.cyclesToLive - 1 }
  else link

def LinkEntry.age (e : LinkEntry) : LinkEntry := { e with link := e.link.age }

/-- Links with pid == -1 and cycles_to_live == 0 are removed. -/
def NatLink.Expired (link : NatLink) : Prop := link.cyclesToLive = 0 ∧ link.socatPid = -1

instance (link : NatLink) : Decidable link.Expired := inferInstanceAs (Decidable (_ ∧ _))

/-- What `usernat_set_pid_for_link` sets in the link it finds. -/
def LinkEntry.setPid (e : LinkEntry) (pid : Int) : LinkEntry :=
  { e with link := { e.link with
    socatPid := pid
    enqueuePackets := false
    packetsQueue := none
    cyclesToLive := if pid = -1 then 100 else e.link.cyclesToLive } }

/-- The walk of `usernat_set_pid_for_link`: the links it leaves, and the link it
finds as it was. -/
def setPidLoop (ptr : Nat) (pid : Int) : List LinkEntry → List LinkEntry × Option LinkEntry
  | [] => ([], none)
  | curr :: rest =>
    if curr.age.link.Expired then
      -- the link is deleted
      setPidLoop ptr pid rest
    else if curr.ptr = ptr then (curr.age.setPid pid :: rest, some curr.age)
    else (curr.age :: (setPidLoop ptr pid rest).1, (setPidLoop ptr pid rest).2)

/-- The locked section of `usernat_set_pid_for_link`. -/
def usernatSetPidForLink (ptr : Nat) (pid : Int) (links : List LinkEntry) :
    List LinkEntry × Option LinkEntry :=
  if ptr = 0 then (links, none) else setPidLoop ptr pid links

/-- A write into the link at `ptr`. -/
def updateLink (ptr : Nat) (write : NatLink → NatLink) (links : List LinkEntry) :
    List LinkEntry :=
  links.map fun e => if e.ptr = ptr then { e with link := write e.link } else e

/-- `queue_put` on the queue of the link. A link without a queue loses the packet. -/
def NatLink.queuePut (ql : QueueLink) (link : NatLink) : NatLink :=
  { link with packetsQueue := link.packetsQueue.map (· ++ [ql]) }

/-- The result of `buildSocatTunnel` in the link. -/
def NatLink.setResult (ok : Bool) (link : NatLink) : NatLink :=
  { link with socatPid := if ok then 0 else -1 }

/-! ## What stays of a link -/

/-- What a link is found by. -/
structure LinkIdent where
  ptr : Nat
  serial : Nat
  hopPort : BitVec 16
  flow : LinkFlow
  deriving DecidableEq, Repr

def LinkEntry.ident (e : LinkEntry) : LinkIdent := ⟨e.ptr, e.serial, e.link.hopPort, e.link.flow⟩

@[simp] theorem age_packetsQueue (e : LinkEntry) :
    e.age.link.packetsQueue = e.link.packetsQueue := by
  unfold LinkEntry.age NatLink.age
  dsimp only
  split <;> rfl

@[simp] theorem age_socatPid (e : LinkEntry) : e.age.link.socatPid = e.link.socatPid := by
  unfold LinkEntry.age NatLink.age
  dsimp only
  split <;> rfl

@[simp] theorem age_enqueuePackets (e : LinkEntry) :
    e.age.link.enqueuePackets = e.link.enqueuePackets := by
  unfold LinkEntry.age NatLink.age
  dsimp only
  split <;> rfl

@[simp] theorem age_ident (e : LinkEntry) : e.age.ident = e.ident := by
  unfold LinkEntry.age NatLink.age LinkEntry.ident
  dsimp only
  split <;> rfl

/-- The walk takes links out, and changes none of what the others are found by. -/
theorem setPidLoop_ident (ptr : Nat) (pid : Int) (links : List LinkEntry) :
    ((setPidLoop ptr pid links).1.map LinkEntry.ident).Sublist (links.map LinkEntry.ident) := by
  induction links with
  | nil => exact List.Sublist.refl _
  | cons curr rest ih =>
    rw [setPidLoop, List.map_cons, ← age_ident curr]
    split
    · exact ih.cons _
    · split
      · exact (List.Sublist.refl _).cons_cons _
      · exact ih.cons_cons _

theorem usernatSetPidForLink_ident (ptr : Nat) (pid : Int) (links : List LinkEntry) :
    ((usernatSetPidForLink ptr pid links).1.map LinkEntry.ident).Sublist
      (links.map LinkEntry.ident) := by
  unfold usernatSetPidForLink
  split
  · exact List.Sublist.refl _
  · exact setPidLoop_ident ptr pid links

/-- What the walk leaves of a link: its queue, its pid and its flag, or none of its
queue. -/
def LinkEntry.LeftOf (ptr : Nat) (e e' : LinkEntry) : Prop :=
  e'.ident = e.ident ∧
    ((e'.link.packetsQueue = e.link.packetsQueue ∧ e'.link.socatPid = e.link.socatPid ∧
        e'.link.enqueuePackets = e.link.enqueuePackets) ∨
      (e.ptr = ptr ∧ e'.link.packetsQueue = none ∧ e'.link.enqueuePackets = false))

theorem mem_setPidLoop {ptr : Nat} {pid : Int} {links : List LinkEntry} {e' : LinkEntry}
    (h : e' ∈ (setPidLoop ptr pid links).1) : ∃ e ∈ links, e.LeftOf ptr e' := by
  induction links with
  | nil => cases h
  | cons curr rest ih =>
    have hrest : e' ∈ (setPidLoop ptr pid rest).1 → ∃ e ∈ curr :: rest, e.LeftOf ptr e' := by
      intro he'
      obtain ⟨e, he, hleft⟩ := ih he'
      exact ⟨e, List.mem_cons_of_mem _ he, hleft⟩
    rw [setPidLoop] at h
    split at h
    next => exact hrest h
    next =>
      split at h
      next hptr =>
        rcases List.mem_cons.mp h with rfl | he'
        · exact ⟨curr, List.mem_cons_self, age_ident curr, Or.inr ⟨hptr, rfl, rfl⟩⟩
        · exact ⟨e', List.mem_cons_of_mem _ he', rfl, Or.inl ⟨rfl, rfl, rfl⟩⟩
      next =>
        rcases List.mem_cons.mp h with rfl | he'
        · exact ⟨curr, List.mem_cons_self, age_ident curr,
            Or.inl ⟨age_packetsQueue curr, age_socatPid curr, age_enqueuePackets curr⟩⟩
        · exact hrest he'

theorem mem_usernatSetPidForLink {ptr : Nat} {pid : Int} {links : List LinkEntry} {e' : LinkEntry}
    (h : e' ∈ (usernatSetPidForLink ptr pid links).1) : ∃ e ∈ links, e.LeftOf ptr e' := by
  unfold usernatSetPidForLink at h
  split at h
  · exact ⟨e', h, rfl, Or.inl ⟨rfl, rfl, rfl⟩⟩
  · exact mem_setPidLoop h

/-- The link that the walk finds is in the table, at the address it looks for. -/
theorem setPidLoop_found {ptr : Nat} {pid : Int} {links : List LinkEntry} {found : LinkEntry}
    (h : (setPidLoop ptr pid links).2 = some found) :
    ∃ e ∈ links, e.ptr = ptr ∧ found = e.age := by
  induction links with
  | nil => cases h
  | cons curr rest ih =>
    have hrest : (setPidLoop ptr pid rest).2 = some found →
        ∃ e ∈ curr :: rest, e.ptr = ptr ∧ found = e.age := by
      intro hfound
      obtain ⟨e, he, hptr, heq⟩ := ih hfound
      exact ⟨e, List.mem_cons_of_mem _ he, hptr, heq⟩
    rw [setPidLoop] at h
    split at h
    next => exact hrest h
    next =>
      split at h
      next hptr => exact ⟨curr, List.mem_cons_self, hptr, (Option.some.inj h).symm⟩
      next => exact hrest h

theorem usernatSetPidForLink_found {ptr : Nat} {pid : Int} {links : List LinkEntry}
    {found : LinkEntry} (h : (usernatSetPidForLink ptr pid links).2 = some found) :
    ∃ e ∈ links, e.ptr = ptr ∧ found = e.age := by
  unfold usernatSetPidForLink at h
  split at h
  · cases h
  · exact setPidLoop_found h

/-- The link that the walk looks for is not left as it was. -/
theorem setPidLoop_hit {ptr : Nat} {pid : Int} {links : List LinkEntry}
    (hnodup : (links.map LinkEntry.ptr).Nodup) {e' : LinkEntry}
    (h : e' ∈ (setPidLoop ptr pid links).1) (hptr : e'.ptr = ptr) :
    e'.link.enqueuePackets = false := by
  induction links with
  | nil => cases h
  | cons curr rest ih =>
    rw [List.map_cons, List.nodup_cons] at hnodup
    obtain ⟨hfresh, hnodup⟩ := hnodup
    rw [setPidLoop] at h
    split at h
    next => exact ih hnodup h
    next =>
      split at h
      next hcurr =>
        rcases List.mem_cons.mp h with rfl | he'
        · rfl
        · exact absurd (List.mem_map.mpr ⟨e', he', hptr.trans hcurr.symm⟩) hfresh
      next hcurr =>
        rcases List.mem_cons.mp h with rfl | he'
        · exact absurd hptr hcurr
        · exact ih hnodup he'

theorem updateLink_ident (ptr : Nat) {write : NatLink → NatLink} (links : List LinkEntry)
    (hflow : ∀ link, (write link).flow = link.flow)
    (hhop : ∀ link, (write link).hopPort = link.hopPort) :
    (updateLink ptr write links).map LinkEntry.ident = links.map LinkEntry.ident := by
  unfold updateLink
  rw [List.map_map]
  apply List.map_congr_left
  intro e _
  unfold LinkEntry.ident
  rw [Function.comp_apply]
  split
  · rw [hflow, hhop]
  · rfl

theorem updateLink_serials (ptr : Nat) (write : NatLink → NatLink) (links : List LinkEntry) :
    (updateLink ptr write links).map LinkEntry.serial = links.map LinkEntry.serial := by
  unfold updateLink
  rw [List.map_map]
  apply List.map_congr_left
  intro e _
  rw [Function.comp_apply]
  split <;> rfl

end ConfProfile
