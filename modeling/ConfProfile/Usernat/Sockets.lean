import ConfProfile.Lib.Handles
import ConfProfile.Lib.Run
import ConfProfile.Usernat.SetPid

/-!
# The sockets of the links

Every descriptor that `create_link_tcp4` and `create_link_udp4` open, and every `close` in
the module. A link that is made has two sockets. `find_link` closes `sock_accept` where the
relay cannot be set up; nothing closes `sock_connect`, and `link_deinit` closes neither. Of
the error paths in the two functions, those of TCP up to `listen` and the one of `link_init`
in both leave what was opened.

So a run closes every descriptor once exactly if it comes to none of these
(`sockets_along_iff`).
-/

namespace ConfProfile

open ByteMem Handles Run

/-! ## Creating a link -/

/-- What `socket` (no descriptor where it is -1) and `protectSocket` answer. -/
structure SocketAnswer where
  sock : Option Int
  isProtected : Bool
  deriving DecidableEq, Repr

/-- `create_socket`: its calls and what it returns. -/
def createSocket (answer : SocketAnswer) (protect : Bool) : List (HandleCall Int) × Option Int :=
  match answer.sock with
  | none => ([], none)
  | some sock =>
    if protect = true ∧ answer.isProtected = false then ([.acquire sock, .release sock], none)
    else ([.acquire sock], some sock)

/-- What is answered to the calls of a `create_link` function, in their order. A `connect`
that fails is only logged. -/
structure CreateAnswers where
  accept : SocketAnswer
  bind : Bool
  /-- with `sin_port` -/
  getsockname : Option (BitVec 16)
  listen : Bool
  connect : SocketAnswer
  /-- the address of the link, and whether there is memory for its queue -/
  linkInit : Option (Nat × Bool)
  deriving DecidableEq, Repr

/-- The link at the end of both `create_link` functions. -/
def CreateAnswers.link (a : CreateAnswers) (linkType : BitVec 8) (m : Mem) (offs : Nat)
    (sockAccept sockConnect : Int) (port : BitVec 16) : Option (Nat × NatLink) :=
  a.linkInit.map fun (ptr, queueInit) =>
    (ptr, createdLink linkType m offs ⟨sockAccept, sockConnect, ntohs port, ptr, queueInit⟩)

/-- `create_link_tcp4`: its calls, and the link with its address. -/
def createLinkTcp4Calls (m : Mem) (offs : Nat) (a : CreateAnswers) :
    List (HandleCall Int) × Option (Nat × NatLink) :=
  if tcpSyn m offs = false then
    -- create a link on SYN packet only
    ([], none)
  else
    match createSocket a.accept false with
    | (calls, none) => (calls, none)
    | (calls, some sockAccept) =>
      if a.bind = false then (calls, none)
      else
        match a.getsockname with
        | none => (calls, none)
        | some port =>
          if a.listen = false then (calls, none)
          else
            match createSocket a.connect true with
            | (calls', none) => (calls ++ calls' ++ [.release sockAccept], none)
            | (calls', some sockConnect) =>
              (calls ++ calls', a.link natLinkTcp4 m offs sockAccept sockConnect port)

/-- `create_link_udp4`. -/
def createLinkUdp4Calls (m : Mem) (offs : Nat) (a : CreateAnswers) :
    List (HandleCall Int) × Option (Nat × NatLink) :=
  match createSocket a.accept false with
  | (calls, none) => (calls, none)
  | (calls, some sockAccept) =>
    if a.bind = false then (calls ++ [.release sockAccept], none)
    else
      match a.getsockname with
      | none => (calls ++ [.release sockAccept], none)
      | some port =>
        match createSocket a.connect true with
        | (calls', none) => (calls ++ calls' ++ [.release sockAccept], none)
        | (calls', some sockConnect) =>
          (calls ++ calls', a.link natLinkUdp4 m offs sockAccept sockConnect port)

/-- `create_link`. -/
def createLinkCalls (linkType : BitVec 8) (m : Mem) (offs : Nat) (a : CreateAnswers) :
    List (HandleCall Int) × Option (Nat × NatLink) :=
  if linkType = natLinkTcp4 then createLinkTcp4Calls m offs a
  else if linkType = natLinkUdp4 then createLinkUdp4Calls m offs a
  else ([], none)

/-! ## When a link is made, and when a socket is lost -/

/-- `create_socket` of a socket that is to be protected returns it. -/
def SocketAnswer.Opens (answer : SocketAnswer) : Prop :=
  answer.sock ≠ none ∧ answer.isProtected = true

/-- The calls for `sock_accept` and the socket for `sock_connect` come back with success. -/
def CreateAnswers.OpensBoth (a : CreateAnswers) : Prop :=
  a.accept.sock ≠ none ∧ a.bind = true ∧ a.getsockname ≠ none ∧ a.connect.Opens

/-- The packet is one that a link is made for, and there is one. -/
def CreateAnswers.Succeeds (a : CreateAnswers) (linkType : BitVec 8) (m : Mem) (offs : Nat) :
    Prop :=
  a.OpensBoth ∧ a.linkInit ≠ none ∧
    (linkType = natLinkTcp4 ∧ tcpSyn m offs = true ∧ a.listen = true ∨ linkType = natLinkUdp4)

/-- The creation fails where what was opened is left: for TCP behind the first socket, unless
it is the second that cannot be had; for UDP at the memory of the link only. -/
def CreateAnswers.Leaks (a : CreateAnswers) (linkType : BitVec 8) (m : Mem) (offs : Nat) : Prop :=
  linkType = natLinkTcp4 ∧ tcpSyn m offs = true ∧ a.accept.sock ≠ none ∧
      (a.bind = false ∨ a.getsockname = none ∨ a.listen = false ∨
        a.connect.Opens ∧ a.linkInit = none) ∨
    linkType = natLinkUdp4 ∧ a.OpensBoth ∧ a.linkInit = none

/-- What a creation comes to, in a process that holds the descriptors of `t`. -/
inductive Creation (t : Table Int) (a : CreateAnswers) (succeeds leaks : Prop) :
    List (HandleCall Int) × Option (Nat × NatLink) → Prop
  | made {sockAccept sockConnect : Int} {ptr : Nat} {link : NatLink} (h : succeeds) (hno : ¬ leaks)
      (haccept : a.accept.sock = some sockAccept) (hconnect : a.connect.sock = some sockConnect)
      (hlink : link.sockAccept = sockAccept ∧ link.sockConnect = sockConnect ∧
        link.socatPid = 0 ∧ link.cyclesToLive = 0)
      (hptr : ∃ queueInit, a.linkInit = some (ptr, queueInit)) :
      Creation t a succeeds leaks
        ([.acquire sockAccept, .acquire sockConnect], some (ptr, link))
  | closed {calls : List (HandleCall Int)} (h : ¬ succeeds) (hno : ¬ leaks) (ht : t.calls calls = t) :
      Creation t a succeeds leaks (calls, none)
  | lost {calls : List (HandleCall Int)} (h : ¬ succeeds) (hleaks : leaks) (fd : Int) (fds : List Int)
      (ht : t.calls calls = { t with held := fd :: fds ++ t.held }) :
      Creation t a succeeds leaks (calls, none)

section creation

variable {answer : SocketAnswer} {a : CreateAnswers} {t : Table Int}

theorem createSocket_accept {fd : Int} (hsock : answer.sock = some fd) :
    createSocket answer false = ([.acquire fd], some fd) := by
  unfold createSocket
  rw [hsock]
  rfl

theorem createSocket_none (hsock : answer.sock = none) (protect : Bool) :
    createSocket answer protect = ([], none) := by
  unfold createSocket
  rw [hsock]

theorem createSocket_connect (h : answer.Opens) :
    ∃ fd, answer.sock = some fd ∧ createSocket answer true = ([.acquire fd], some fd) := by
  obtain ⟨fd, hfd⟩ := Option.ne_none_iff_exists'.mp h.1
  refine ⟨fd, hfd, ?_⟩
  unfold createSocket
  rw [hfd, h.2]
  rfl

/-- A socket that cannot be protected is closed again. -/
theorem createSocket_unprotected (h : ¬ answer.Opens) :
    ∃ calls, createSocket answer true = (calls, none) ∧ ∀ t : Table Int, t.calls calls = t := by
  cases hsock : answer.sock with
  | none => exact ⟨[], createSocket_none hsock true, fun _ => rfl⟩
  | some fd =>
    have hprotected : answer.isProtected = false := by
      unfold SocketAnswer.Opens at h
      simpa [hsock] using h
    refine ⟨[.acquire fd, .release fd], ?_, fun t => Table.call_release_head rfl⟩
    unfold createSocket
    rw [hsock, hprotected]
    rfl

/-- Both functions from the second socket on: it is had and there is memory or not, or the
first socket is closed. -/
theorem creation_connect {succeeds leaks : Prop} {sockAccept : Int} (linkType : BitVec 8) (m : Mem)
    (offs : Nat) (port : BitVec 16) (haccept : a.accept.sock = some sockAccept)
    (hsucceeds : succeeds ↔ a.connect.Opens ∧ a.linkInit ≠ none)
    (hleaks : leaks ↔ a.connect.Opens ∧ a.linkInit = none) :
    Creation t a succeeds leaks
      (match createSocket a.connect true with
      | (calls', none) => ([.acquire sockAccept] ++ calls' ++ [.release sockAccept], none)
      | (calls', some sockConnect) =>
        ([.acquire sockAccept] ++ calls', a.link linkType m offs sockAccept sockConnect port)) := by
  by_cases hopens : a.connect.Opens
  · obtain ⟨sockConnect, hconnect, hsocket⟩ := createSocket_connect hopens
    rw [hsocket]
    unfold CreateAnswers.link
    cases hinit : a.linkInit with
    | none =>
      refine .lost ?_ (hleaks.mpr ⟨hopens, hinit⟩) sockConnect [sockAccept] rfl
      rw [hsucceeds]
      exact fun h => h.2 hinit
    | some init =>
      refine .made ?_ ?_ haccept hconnect ⟨rfl, rfl, rfl, rfl⟩ ⟨init.2, hinit⟩
      · rw [hsucceeds, hinit]
        exact ⟨hopens, by simp⟩
      · rw [hleaks, hinit]
        simp
  · obtain ⟨calls', hsocket, hcalls⟩ := createSocket_unprotected hopens
    rw [hsocket]
    refine .closed (fun h => hopens (hsucceeds.mp h).1) (fun h => hopens (hleaks.mp h).1) ?_
    unfold Table.calls at *
    rw [List.foldl_append, List.foldl_append, hcalls]
    exact Table.call_release_head rfl

/-- Where the first socket is not had, nothing has been opened. -/
theorem creation_noSocket {succeeds leaks : Prop} (h : a.accept.sock = none)
    (hsucceeds : succeeds → a.accept.sock ≠ none) (hleaks : leaks → a.accept.sock ≠ none) :
    Creation t a succeeds leaks ([], none) :=
  .closed (fun hs => hsucceeds hs h) (fun hl => hleaks hl h) rfl

variable (linkType : BitVec 8) (m : Mem) (offs : Nat) (a t)

theorem creation_tcp (htype : linkType = natLinkTcp4) :
    Creation t a (a.Succeeds linkType m offs) (a.Leaks linkType m offs)
      (createLinkTcp4Calls m offs a) := by
  subst htype
  have hudp : natLinkTcp4 ≠ natLinkUdp4 := by decide
  unfold createLinkTcp4Calls CreateAnswers.Succeeds CreateAnswers.Leaks CreateAnswers.OpensBoth
  simp only [hudp, true_and, false_and, or_false]
  by_cases hsyn : tcpSyn m offs = false
  · rw [if_pos hsyn]
    exact .closed (by simp [hsyn]) (by simp [hsyn]) rfl
  rw [if_neg hsyn]
  cases haccept : a.accept.sock with
  | none =>
    rw [createSocket_none haccept]
    exact creation_noSocket haccept (by simp) (by simp)
  | some fd =>
    rw [createSocket_accept haccept]
    -- none of the next three closes the socket
    dsimp only
    split
    next hbind =>
      exact .lost (by simp [hbind]) (by simp [hbind, hsyn]) fd [] rfl
    next hbind =>
      split
      next hname =>
        exact .lost (by simp [hname]) (by simp [hname, hsyn]) fd [] rfl
      next port hname =>
        split
        next hlisten =>
          exact .lost (by simp [hlisten]) (by simp [hlisten, hsyn]) fd [] rfl
        next hlisten =>
          rw [Bool.not_eq_false] at hsyn hbind hlisten
          refine creation_connect natLinkTcp4 m offs port haccept ?_ ?_
          · simp [hsyn, hbind, hname, hlisten]
          · simp [hsyn, hbind, hname, hlisten]

theorem creation_udp (htype : linkType = natLinkUdp4) :
    Creation t a (a.Succeeds linkType m offs) (a.Leaks linkType m offs)
      (createLinkUdp4Calls m offs a) := by
  subst htype
  have htcp : natLinkUdp4 ≠ natLinkTcp4 := by decide
  unfold createLinkUdp4Calls CreateAnswers.Succeeds CreateAnswers.Leaks CreateAnswers.OpensBoth
  simp only [htcp, false_and, false_or, true_and]
  cases haccept : a.accept.sock with
  | none =>
    rw [createSocket_none haccept]
    exact creation_noSocket haccept (by simp) (by simp)
  | some fd =>
    rw [createSocket_accept haccept]
    dsimp only
    split
    next hbind =>
      exact .closed (by simp [hbind]) (by simp [hbind]) (Table.call_release_head rfl)
    next hbind =>
      split
      next hname =>
        exact .closed (by simp [hname]) (by simp [hname]) (Table.call_release_head rfl)
      next port hname =>
        rw [Bool.not_eq_false] at hbind
        refine creation_connect natLinkUdp4 m offs port haccept ?_ ?_
        · simp [hbind, hname]
        · simp [hbind, hname]

theorem creation : Creation t a (a.Succeeds linkType m offs) (a.Leaks linkType m offs)
    (createLinkCalls linkType m offs a) := by
  unfold createLinkCalls
  split
  next htcp => exact creation_tcp a t linkType m offs htcp
  next htcp =>
    split
    next hudp => exact creation_udp a t linkType m offs hudp
    next hudp =>
      refine .closed ?_ ?_ rfl
      · simp [CreateAnswers.Succeeds, htcp, hudp]
      · simp [CreateAnswers.Leaks, htcp, hudp]

end creation

/-- The answer for which `ConfProfile.Usernat.Table` makes the link. -/
def CreateAnswers.linkAnswer (a : CreateAnswers) (linkType : BitVec 8) : Option LinkAnswer :=
  match a.accept.sock, a.getsockname, a.connect.sock, a.linkInit with
  | some sockAccept, some port, some sockConnect, some (ptr, queueInit) =>
    if a.bind = true ∧ (linkType = natLinkTcp4 → a.listen = true) ∧ a.connect.isProtected = true then
      some ⟨sockAccept, sockConnect, ntohs port, ptr, queueInit⟩
    else none
  | _, _, _, _ => none

section linkAnswer

variable (m : Mem) (offs : Nat) (a : CreateAnswers)

theorem createLinkTcp4Calls_link : (createLinkTcp4Calls m offs a).2.map Prod.snd =
    createLinkTcp4 m offs (a.linkAnswer natLinkTcp4) := by
  unfold createLinkTcp4Calls createLinkTcp4 CreateAnswers.linkAnswer createSocket CreateAnswers.link
  split
  · rfl
  cases a.accept.sock with
  | none => rfl
  | some sockAccept =>
    cases a.getsockname with
    | none => cases a.bind <;> rfl
    | some port =>
      cases a.connect.sock with
      | none => cases a.bind <;> cases a.listen <;> rfl
      | some sockConnect =>
        cases a.linkInit <;> cases a.bind <;> cases a.listen <;> cases a.connect.isProtected <;> rfl

theorem createLinkUdp4Calls_link : (createLinkUdp4Calls m offs a).2.map Prod.snd =
    createLinkUdp4 m offs (a.linkAnswer natLinkUdp4) := by
  unfold createLinkUdp4Calls createLinkUdp4 CreateAnswers.linkAnswer createSocket CreateAnswers.link
  cases a.accept.sock with
  | none => rfl
  | some sockAccept =>
    cases a.getsockname with
    | none => cases a.bind <;> rfl
    | some port =>
      cases a.connect.sock with
      | none => cases a.bind <;> rfl
      | some sockConnect =>
        cases a.linkInit <;> cases a.bind <;> cases a.connect.isProtected <;> rfl

/-- The links are those of `createLink`. -/
theorem createLinkCalls_link (linkType : BitVec 8) :
    (createLinkCalls linkType m offs a).2.map Prod.snd =
      createLink linkType m offs (a.linkAnswer linkType) := by
  unfold createLinkCalls createLink
  split
  next htcp => rw [htcp, createLinkTcp4Calls_link]
  next =>
    split
    next hudp => rw [hudp, createLinkUdp4Calls_link]
    next => rfl

end linkAnswer

/-! ## Runs -/

/-- The table, and what was done to descriptors. -/
structure SockSystem where
  links : List LinkEntry
  calls : List (HandleCall Int)
  deriving DecidableEq

inductive SockAct
  /-- `find_link` for an outgoing packet that no link is in the table for, where
  `buildSocatTunnel` succeeds or not -/
  | findLink (linkType : BitVec 8) (m : Mem) (offs : Nat) (answers : CreateAnswers) (built : Bool)
  /-- `usernat_set_pid_for_link` -/
  | setPid (link : Nat) (pid : Int)

/-- The part of `find_link` behind the lookup. -/
def SockSystem.findLink (s : SockSystem) (linkType : BitVec 8) (m : Mem) (offs : Nat)
    (answers : CreateAnswers) (built : Bool) : SockSystem :=
  match createLinkCalls linkType m offs answers with
  -- can't create link, dropping a packet
  | (calls, none) => { s with calls := s.calls ++ calls }
  | (calls, some (ptr, link)) =>
    let result := link.setResult built
    let links := ⟨ptr, 0, result⟩ :: s.links
    if result.socatPid = -1 then
      { links := (usernatSetPidForLink ptr (-1) links).1
        calls := s.calls ++ calls ++ [.release result.sockAccept] }
    else ⟨links, s.calls ++ calls⟩

/-- What the kernel and `malloc` promise of their answers: descriptors that are not open and
memory that is not in use. -/
structure SockSystem.Grants (s : SockSystem) (a : CreateAnswers) : Prop where
  accept : ∀ fd ∈ a.accept.sock, fd ∉ (after s.calls).held
  connect : ∀ fd ∈ a.connect.sock, fd ∉ (after s.calls).held ∧ a.accept.sock ≠ some fd
  linkInit : ∀ init ∈ a.linkInit, init.1 ≠ 0 ∧ ∀ e ∈ s.links, e.ptr ≠ init.1

instance SockSystem.decidableGrants (s : SockSystem) (a : CreateAnswers) : Decidable (s.Grants a) :=
  decidable_of_iff ((∀ fd ∈ a.accept.sock, fd ∉ (after s.calls).held) ∧
      (∀ fd ∈ a.connect.sock, fd ∉ (after s.calls).held ∧ a.accept.sock ≠ some fd) ∧
      ∀ init ∈ a.linkInit, init.1 ≠ 0 ∧ ∀ e ∈ s.links, e.ptr ≠ init.1)
    ⟨fun h => ⟨h.1, h.2.1, h.2.2⟩, fun h => ⟨h.accept, h.connect, h.linkInit⟩⟩

def sockStep (s : SockSystem) : SockAct → Option SockSystem
  | .findLink linkType m offs answers built =>
    if s.Grants answers then some (s.findLink linkType m offs answers built) else none
  | .setPid link pid => some { s with links := (usernatSetPidForLink link pid s.links).1 }

/-- The descriptors of the links in the table. -/
def linkFds (links : List LinkEntry) : List Int :=
  links.flatMap fun e => [e.link.sockConnect, e.link.sockAccept]

/-- Every descriptor was closed once for each time it was opened, but for those of the links
in the table; and nothing was closed that the module had not open. -/
def SockSystem.ClosedOnce (s : SockSystem) : Prop :=
  (after s.calls).stray = false ∧
    ∀ fd, s.calls.count (.acquire fd) = s.calls.count (.release fd) + (linkFds s.links).count fd

theorem SockSystem.closedOnce_iff (s : SockSystem) : s.ClosedOnce ↔
    (after s.calls).stray = false ∧ (after s.calls).held.Perm (linkFds s.links) :=
  and_congr_right fun h => (held_perm_iff h (linkFds s.links)).symm

/-- The links at or before the one at `ptr`. -/
def linksUpTo (ptr : Nat) : List LinkEntry → List LinkEntry
  | [] => []
  | e :: links => if e.ptr = ptr then [e] else e :: linksUpTo ptr links

/-- What an action must be for it to leave no descriptor behind. -/
def SockSystem.Releases (s : SockSystem) : SockAct → Prop
  | .findLink linkType m offs answers built =>
    ¬ answers.Leaks linkType m offs ∧ (answers.Succeeds linkType m offs → built = true)
  | .setPid link _ => link ≠ 0 → ∀ e ∈ linksUpTo link s.links, ¬ e.link.RunOut

/-! ## Links that are deleted -/

section deleted

variable {link : Nat} {pid : Int} {links : List LinkEntry}

@[simp] theorem linkFds_cons (e : LinkEntry) :
    linkFds (e :: links) = e.link.sockConnect :: e.link.sockAccept :: linkFds links := rfl

theorem length_linkFds : (linkFds links).length = 2 * links.length := by
  induction links with
  | nil => rfl
  | cons e links ih =>
    rw [linkFds_cons, List.length_cons, List.length_cons, List.length_cons, ih]
    omega

/-- The walk takes links out, and changes no descriptor of the others. -/
theorem linkFds_setPidLoop (link : Nat) (pid : Int) (links : List LinkEntry) :
    (linkFds (setPidLoop link pid links).1).Sublist (linkFds links) := by
  induction links with
  | nil => exact List.Sublist.refl _
  | cons e links ih =>
    have hage : e.age.link.sockConnect = e.link.sockConnect ∧
        e.age.link.sockAccept = e.link.sockAccept := by
      rw [age_eq_passed]
      exact ⟨rfl, rfl⟩
    rw [setPidLoop]
    split
    · exact (ih.cons _).cons _
    · split
      · simp only [linkFds_cons, LinkEntry.setPid, hage]
        exact List.Sublist.refl _
      · simp only [linkFds_cons, hage]
        exact (ih.cons_cons _).cons_cons _

/-- No link is taken out exactly if none has run out up to the one that is looked for. -/
theorem length_setPidLoop (link : Nat) (pid : Int) (links : List LinkEntry) :
    (setPidLoop link pid links).1.length = links.length ↔
      ∀ e ∈ linksUpTo link links, ¬ e.link.RunOut := by
  induction links with
  | nil => simp [setPidLoop, linksUpTo]
  | cons e links ih =>
    rw [setPidLoop, linksUpTo]
    simp only [age_eq_passed, passed_expired_iff]
    split
    next hout =>
      have hle : (setPidLoop link pid links).1.length ≤ links.length := by
        have hsub := (linkFds_setPidLoop link pid links).length_le
        rw [length_linkFds, length_linkFds] at hsub
        omega
      refine iff_of_false ?_ fun h => h e ?_ hout
      · rw [List.length_cons]
        omega
      · split <;> exact List.mem_cons_self
    next hout =>
      split
      next => simpa using hout
      next =>
        rw [List.length_cons, List.length_cons, Nat.add_right_cancel_iff, ih,
          List.forall_mem_cons, and_iff_right hout]

end deleted

/-! ## What a step leaves open -/

section steps

variable {s s' : SockSystem} {links : List LinkEntry} {calls : List (HandleCall Int)}

/-- More is held than the links have. -/
theorem not_closedOnce (hlength : (after s.calls).held.length ≠ 2 * s.links.length) :
    ¬ s.ClosedOnce := by
  rw [s.closedOnce_iff]
  rintro ⟨-, hperm⟩
  exact hlength (hperm.length_eq.trans length_linkFds)

/-- The descriptors of a link that is made are those of its entry. -/
theorem closedOnce_made (h : s.ClosedOnce) {sockAccept sockConnect : Int} {e : LinkEntry}
    (haccept : e.link.sockAccept = sockAccept) (hconnect : e.link.sockConnect = sockConnect) :
    SockSystem.ClosedOnce
      ⟨e :: s.links, s.calls ++ [.acquire sockAccept, .acquire sockConnect]⟩ := by
  rw [SockSystem.closedOnce_iff] at h ⊢
  dsimp only
  rw [after_append, linkFds_cons, haccept, hconnect]
  exact ⟨h.1, (h.2.cons _).cons _⟩

/-- `sock_connect` of a link whose relay cannot be set up is left. -/
theorem not_closedOnce_failed (h : s.ClosedOnce) (link : NatLink) {sockAccept sockConnect : Int}
    {ptr : Nat} (hfresh : sockConnect ∉ (after s.calls).held) (hne : sockAccept ≠ sockConnect)
    (hptr : ptr ≠ 0) (hpid : link.socatPid = -1) (hcycles : link.cyclesToLive = 0) :
    ¬ SockSystem.ClosedOnce
      ⟨(usernatSetPidForLink ptr (-1) (⟨ptr, 0, link⟩ :: s.links)).1,
        s.calls ++ [.acquire sockAccept, .acquire sockConnect] ++ [.release sockAccept]⟩ := by
  rw [SockSystem.closedOnce_iff] at h ⊢
  rintro ⟨-, hperm⟩
  have hlinks : (usernatSetPidForLink ptr (-1) (⟨ptr, 0, link⟩ :: s.links)).1 =
      (setPidLoop ptr (-1) s.links).1 := by
    unfold usernatSetPidForLink
    rw [if_neg hptr, setPidLoop, if_pos]
    rw [age_eq_passed, passed_expired_iff]
    exact ⟨hpid, Or.inl hcycles⟩
  have hmem : sockConnect ∈ (after
      (s.calls ++ [.acquire sockAccept, .acquire sockConnect] ++ [.release sockAccept])).held := by
    rw [after_append, after_append, Table.calls_cons, Table.calls_nil, Table.call_release]
    · exact (List.mem_erase_of_ne (Ne.symm hne)).mpr List.mem_cons_self
    · exact List.mem_cons_of_mem _ List.mem_cons_self
  rw [hperm.mem_iff] at hmem
  dsimp only at hmem
  rw [hlinks] at hmem
  exact hfresh (h.2.mem_iff.mpr ((linkFds_setPidLoop _ _ _).subset hmem))

theorem closedOnce_findLink_iff {linkType : BitVec 8} {m : Mem} {offs : Nat}
    {answers : CreateAnswers} {built : Bool} (h : s.ClosedOnce) (hgrants : s.Grants answers) :
    (s.findLink linkType m offs answers built).ClosedOnce ↔
      s.Releases (.findLink linkType m offs answers built) := by
  have hcreation := creation answers (after s.calls) linkType m offs
  unfold SockSystem.findLink SockSystem.Releases
  generalize createLinkCalls linkType m offs answers = result at hcreation ⊢
  cases hcreation with
  | @made sockAccept sockConnect ptr link hsucceeds hno haccept hconnect hlink hptr =>
    obtain ⟨hla, hlc, hpid, hcycles⟩ := hlink
    cases built with
    | true =>
      refine iff_of_true ?_ ⟨hno, fun _ => rfl⟩
      exact closedOnce_made h hla hlc
    | false =>
      obtain ⟨queueInit, hinit⟩ := hptr
      obtain ⟨hfresh, hne⟩ := hgrants.connect sockConnect hconnect
      refine iff_of_false ?_ fun hreleases => Bool.false_ne_true (hreleases.2 hsucceeds)
      have hfailed := not_closedOnce_failed h (link.setResult false) hfresh
        (fun heq => hne (heq ▸ haccept)) (hgrants.linkInit _ hinit).1 rfl hcycles
      rw [← hla] at hfailed ⊢
      exact hfailed
  | closed hnot hno ht =>
    refine iff_of_true ?_ ⟨hno, fun hsucceeds => absurd hsucceeds hnot⟩
    rw [SockSystem.closedOnce_iff] at h ⊢
    dsimp only
    rwa [after_append, ht]
  | lost hnot hleaks fd fds ht =>
    refine iff_of_false (not_closedOnce ?_) fun hreleases => hreleases.1 hleaks
    have hlength := (s.closedOnce_iff.mp h).2.length_eq
    rw [length_linkFds] at hlength
    dsimp only
    rw [after_append, ht, List.length_append, List.length_cons]
    omega

theorem closedOnce_setPid_iff {link : Nat} {pid : Int} (h : s.ClosedOnce) :
    SockSystem.ClosedOnce ⟨(usernatSetPidForLink link pid s.links).1, s.calls⟩ ↔
      s.Releases (.setPid link pid) := by
  unfold SockSystem.Releases usernatSetPidForLink
  split
  next hnull => exact iff_of_true h fun hlink => absurd hnull hlink
  next hlink =>
    dsimp only
    rw [forall_prop_of_true hlink, ← length_setPidLoop link pid]
    constructor
    · intro hclosed
      rw [SockSystem.closedOnce_iff] at h hclosed
      have hlength := (hclosed.2.symm.trans h.2).length_eq
      rw [length_linkFds, length_linkFds] at hlength
      dsimp only at hlength
      omega
    · intro hlength
      have hsame : linkFds (setPidLoop link pid s.links).1 = linkFds s.links := by
        refine (linkFds_setPidLoop link pid s.links).eq_of_length ?_
        rw [length_linkFds, length_linkFds, hlength]
      unfold SockSystem.ClosedOnce at h ⊢
      dsimp only
      rwa [hsame]

/-- Where every descriptor has been closed that is not a link's, this stays so exactly if the
action is one that leaves none behind. -/
theorem closedOnce_step_iff {act : SockAct} (h : s.ClosedOnce) (hstep : sockStep s act = some s') :
    s'.ClosedOnce ↔ s.Releases act := by
  cases act with
  | findLink =>
    obtain ⟨hgrants, hs'⟩ := Option.ite_none_right_eq_some.mp hstep
    obtain rfl := Option.some.inj hs'
    exact closedOnce_findLink_iff h hgrants
  | setPid =>
    obtain rfl := Option.some.inj hstep
    exact closedOnce_setPid_iff h

end steps

/-- The module when it is loaded. -/
def SockSystem.start : SockSystem := ⟨[], []⟩

/-- In a run every descriptor is closed once, other than those of the links in the table,
exactly if in each of its steps the creation does not fail where sockets are left, the relay
of a link that is made can be set up, and no link is deleted. -/
theorem sockets_along_iff (acts : List SockAct) :
    Along sockStep (fun _ _ s' => s'.ClosedOnce) .start acts ↔
      Along sockStep (fun s act _ => s.Releases act) .start acts :=
  along_iff_cond (I := fun _ => True) (P := SockSystem.ClosedOnce)
    (q := fun _ _ s' => s'.ClosedOnce) (c := fun s act _ => s.Releases act)
    (fun _ _ _ _ _ => trivial) (fun _ _ _ => id)
    (fun _ _ _ _ h hstep => closedOnce_step_iff h hstep) acts trivial ⟨rfl, fun _ => rfl⟩

/-- A TCP SYN, for which `bind` fails. -/
def failedBind : CreateAnswers where
  accept := ⟨some 40, true⟩
  bind := false
  getsockname := none
  listen := false
  connect := ⟨none, false⟩
  linkInit := none

/-- `create_link_tcp4` returns without closing `sock_accept` where `bind` fails. -/
theorem sockets_counterexample :
    ∃ s, sockStep .start (.findLink natLinkTcp4 (fun _ => 2) 20 failedBind true) = some s ∧
      s.links = [] ∧ s.calls = [.acquire 40] ∧ ¬ s.ClosedOnce := by
  refine ⟨⟨[], [.acquire 40]⟩, by decide, rfl, rfl, ?_⟩
  intro h
  exact absurd (h.2 40) (by decide)

end ConfProfile
