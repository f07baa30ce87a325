import ConfProfile.OpenVpn.Config
import ConfProfile.OpenVpn.Escape
import ConfProfile.OpenVpn.NetUtils
import ConfProfile.Vpn.Status

/-!
# Messages on the management interface (`OpenVpnTunnel.processCommand`)

Every line of the management socket goes to `processCommand`, which takes a message apart and
hands its argument to the handler of its kind. What a handler throws ends the thread of the
tunnel, as nothing up to `run` catches an unchecked exception.

`returns_processCommand` says for which lines no handler throws.
-/

namespace ConfProfile.OpenVpn

open Fields

/-! ## The session -/

/-- What the handlers read and change. -/
structure Session where
  /-- `mOptions.get("username")` -/
  username : OptionValue
  /-- what `managmentCommand` has written -/
  sent : List (List Char)
  /-- `mFDList` -/
  fds : List Nat
  /-- the descriptors given to `protectFileDescriptor`, which throws nothing -/
  protectedFds : List (Option Nat)
  /-- sending the descriptor of the tunnel succeeds -/
  sendsFd : Bool
  releaseHold : Bool
  waitingForRelease : Bool
  status : ConnectionStatus
  /-- `mConnectionError` is `AUTH_FAILED` -/
  authFailed : Bool
  bytesIn : Int64
  bytesOut : Int64
  /-- the addresses set by `setDnsAddress`, by `mDnsIdx` -/
  dns : List (BitVec 32)
  localAddress : Option (List Char)
  masqueradeIp4 : Option (BitVec 32)
  /-- the routes given to the router loop -/
  routes : List (List Char × Nat)
  /-- the VPN manager has its router loop -/
  routerLoop : Bool
  /-- the VPN manager has its notification delegate -/
  ntfDelegate : Bool

def Session.send (s : Session) (cmd : List Char) : Session := { s with sent := s.sent ++ [cmd] }

/-- `args[index]`. -/
def elementAt (args : List (List Char)) (index : Nat) : Except Unchecked (List Char) :=
  match args[index]? with
  | some arg => .ok arg
  | none => .error .arrayIndexOutOfBounds

/-- `substring(p1 + 1, p2)` between the first two quotes, and `substring(p2 + 1)`. -/
def quoted (argument : List Char) : Except Unchecked (List Char × List Char) :=
  match (cut '\'' argument).bind fun r => cut '\'' r.2 with
  | some r => .ok r
  | none => .error .stringIndexOutOfBounds

/-- `setConnectionStatus`, whose report needs the notification delegate. -/
def setConnectionStatus (s : Session) (status : ConnectionStatus) : Except Unchecked Session :=
  if status ≠ s.status then
    if s.ntfDelegate then .ok { s with status } else .error .nullPointer
  else .ok s

/-! ## The handlers -/

variable {R : Type} (P : Platform R) (digit : Char → Option Nat) (s : Session)
  (argument : List Char)

/-- `processLogMessage`, without the log. -/
def processLogMessage : Except Unchecked Session := do
  let args := splitLimit ',' 4 argument
  let _ ← elementAt args 1
  let _ ← parseInt digit (← elementAt args 2)
  let _ ← elementAt args 3
  return s

/-- `releaseHoldCmd`, without its pauses. -/
def releaseHoldCmd : Session :=
  (({ s with waitingForRelease := false }.send "hold release\n".toList).send
    "bytecount 2\n".toList).send "state on\n".toList

def handleHold : Session :=
  if s.releaseHold then releaseHoldCmd s else { s with waitingForRelease := true }

/-- `processProxyCMD`, which has no proxy to name. -/
def processProxyCMD : Session := s.send "proxy NONE\n".toList

def processState : Except Unchecked Session := do
  let args := splitLimit ',' 3 argument
  let currentstate ← elementAt args 1
  let _ ← elementAt args 2
  setConnectionStatus s (ConfProfile.processState P (String.ofList currentstate))

def processByteCount : Except Unchecked Session :=
  match cut ',' argument with
  | none => .error .stringIndexOutOfBounds
  | some r => do
    let bytesIn ← parseLong digit r.1
    let bytesOut ← parseLong digit r.2
    return { s with
      bytesIn := s.bytesIn + Int64.ofInt bytesIn, bytesOut := s.bytesOut + Int64.ofInt bytesOut }

/-- The cast of an option to a string. -/
def OptionValue.asString : OptionValue → Except Unchecked (Option (List Char))
  | .null => .ok none
  | .string s => .ok (some s.toList)
  | .other _ => .error .classCast

def getPasswordPrivateKey : Option (List Char) := none
def getPasswordAuth : Option (List Char) := none

/-- `String.format("%s '%s' %s\n", …)`. -/
def format (command needed value : List Char) : List Char :=
  command ++ " '".toList ++ needed ++ "' ".toList ++ value ++ ['\n']

/-- The end of `processPWCommand`. -/
def sendPassword (needed : List Char) : Option (List Char) → Session
  | some pw => s.send (format "password".toList needed (openVpnEscape pw))
  | none => s

def processPWCommand : Except Unchecked Session :=
  match quoted argument with
  | .error _ => .ok s
  | .ok r =>
    if "Verification Failed".toList <+: argument then .ok { s with authFailed := true }
    else if r.1 = "Private Key".toList then .ok (sendPassword s r.1 getPasswordPrivateKey)
    else if r.1 = "Auth".toList then do
      let username ← s.username.asString
      let usercmd := format "username".toList r.1
        ((username.map openVpnEscape).getD "null".toList)
      return sendPassword (s.send usercmd) r.1 getPasswordAuth
    else .ok (sendPassword s r.1 none)

def getSignedData (_b64data : List Char) : Option (List Char) := some []

def processSignCommand : Session :=
  match getSignedData argument with
  | none => ((s.send "rsa-sig\n".toList).send "\nEND\n".toList).send "signal SIGINT\n".toList
  | some signed_string => ((s.send "rsa-sig\n".toList).send signed_string).send "\nEND\n".toList

/-! ## `processNeedCommand` -/

/-- What OpenVPN may need. -/
inductive Need where
  | protectFd
  | dnsServer
  | dnsDomain
  | route
  | route6
  | ifconfig
  | ifconfig6
  | persistTunAction
  | openTun
  | unknown
  deriving DecidableEq, Repr

def needOf (needed : List Char) : Need :=
  if needed = "PROTECTFD".toList then .protectFd
  else if needed = "DNSSERVER".toList then .dnsServer
  else if needed = "DNSDOMAIN".toList then .dnsDomain
  else if needed = "ROUTE".toList then .route
  else if needed = "ROUTE6".toList then .route6
  else if needed = "IFCONFIG".toList then .ifconfig
  else if needed = "IFCONFIG6".toList then .ifconfig6
  else if needed = "PERSIST_TUN_ACTION".toList then .persistTunAction
  else if needed = "OPENTUN".toList then .openTun
  else .unknown

/-- `pollFirst` with `protectFileDescriptor`. -/
def protectFirst : Session :=
  { s with fds := s.fds.tail, protectedFds := s.protectedFds ++ [s.fds.head?] }

/-- `addDns`, which catches what it throws. -/
def addDns (address : List Char) : Session :=
  match ip4StrToInt digit address with
  | .ok ip4 => { s with dns := s.dns ++ [ip4] }
  | .error _ => s

/-- `addRoute4`, which catches an `IllegalArgumentException`; that of the address, too. -/
def addRoute4 (ip mask : List Char) : Except Unchecked Session :=
  match mask4StrToInt digit mask with
  | .error .illegalArgument => .ok s
  | .error e => .error e
  | .ok prefixLen =>
    if s.routerLoop then .ok { s with routes := s.routes ++ [(ip, prefixLen)] }
    else .error .nullPointer

def setLocalIp4 (ip : List Char) : Except Unchecked Session := do
  let ip4 ← ip4StrToInt digit ip
  return { s with localAddress := some ip, masqueradeIp4 := some ip4 }

/-- `VpnTunnel.setMasqueradeIp6`, whose native method is in no library. -/
def setMasqueradeIp6 (ip6 : List (BitVec 8)) : Except Unchecked Session :=
  if ip6.length ≠ 16 then .ok s else .error .unsatisfiedLink

def setLocalIp6 (ip : List Char) : Except Unchecked Session := do
  let ip6 ← ip6StrToBytes digit ip
  setMasqueradeIp6 { s with localAddress := some ip } ip6

/-- The end of `processNeedCommand`. -/
def needOk (needed status : List Char) : Session := s.send (format "needok".toList needed status)

/-- The branches of `processNeedCommand`. -/
def processNeed (needed extra : List Char) : Except Unchecked Session :=
  let ok := "ok".toList
  match needOf needed with
  | .protectFd => .ok (needOk (protectFirst s) needed ok)
  | .dnsServer => .ok (needOk (addDns digit s extra) needed ok)
  | .dnsDomain => .ok (needOk s needed ok)
  | .route =>
    -- the device is only logged
    let routeparts := Fields.split ' ' extra
    if 3 ≤ routeparts.length then do
      let ip ← elementAt routeparts 0
      let mask ← elementAt routeparts 1
      let s ← addRoute4 digit s ip mask
      return needOk s needed ok
    else .ok (needOk s needed ok)
  | .route6 => do
    let routeparts := Fields.split ' ' extra
    let _ ← elementAt routeparts 0
    let _ ← elementAt routeparts 1
    return needOk s needed ok
  | .ifconfig => do
    let ifconfigparts := Fields.split ' ' extra
    let _ ← parseInt digit (← elementAt ifconfigparts 2)
    let ip ← elementAt ifconfigparts 0
    let _ ← elementAt ifconfigparts 1
    let _ ← elementAt ifconfigparts 3
    let s ← setLocalIp4 digit s ip
    return needOk s needed ok
  | .ifconfig6 => do
    let s ← setLocalIp6 digit s extra
    return needOk s needed ok
  | .persistTunAction => .ok (needOk s needed "OPEN_AFTER_CLOSE".toList)
  | .openTun =>
    if extra = "tun".toList ∧ s.sendsFd then .ok (needOk s needed ok)
    else .ok (needOk s needed "cancel".toList)
  | .unknown => .ok s

def processNeedCommand : Except Unchecked Session := do
  let r ← quoted argument
  let extra ← elementAt (splitLimit ':' 2 argument) 1
  processNeed digit s r.1 extra

/-! ## `processCommand` -/

/-- The kinds of messages. -/
inductive Message where
  | info
  | password
  | hold
  | needOk
  | byteCount
  | state
  | proxy
  | log
  | rsaSign
  | unrecognized
  deriving DecidableEq, Repr

def messageOf (cmd : List Char) : Message :=
  if cmd = "INFO".toList then .info
  else if cmd = "PASSWORD".toList then .password
  else if cmd = "HOLD".toList then .hold
  else if cmd = "NEED-OK".toList then .needOk
  else if cmd = "BYTECOUNT".toList then .byteCount
  else if cmd = "STATE".toList then .state
  else if cmd = "PROXY".toList then .proxy
  else if cmd = "LOG".toList then .log
  else if cmd = "RSA_SIGN".toList then .rsaSign
  else .unrecognized

def processMessage : Message → Except Unchecked Session
  | .info => .ok s
  | .password => processPWCommand s argument
  | .hold => .ok (handleHold s)
  | .needOk => processNeedCommand digit s argument
  | .byteCount => processByteCount digit s argument
  | .state => processState P s argument
  | .proxy => .ok (processProxyCMD s)
  | .log => processLogMessage digit s argument
  | .rsaSign => .ok (processSignCommand s argument)
  | .unrecognized => .ok s

/-- `processCommand` of a line that is not null. -/
def processCommand (command : List Char) : Except Unchecked Session :=
  match command, cut ':' command with
  | '>' :: _, some r => processMessage P digit s r.2 (messageOf r.1.tail)
  | _, _ =>
    if "SUCCESS:".toList <+: command then .ok s
    else if "PROTECTFD: ".toList <+: command then
      match s.fds with
      | [] => .ok s
      | _ :: _ => .ok (protectFirst s)
    else .ok s

/-! ## The lines that are served -/

/-- The form of the argument of a need, and what the session has to have for it. -/
def NeedServed (extra : List Char) : Need → Prop
  | .route => 3 ≤ (Fields.split ' ' extra).length →
    ∀ mask, (Fields.split ' ' extra)[1]? = some mask → IsIp4 digit mask → s.routerLoop = true
  | .route6 => 2 ≤ (Fields.split ' ' extra).length
  | .ifconfig => ∃ ip mask mtu mode rest, Fields.split ' ' extra = ip :: mask :: mtu :: mode :: rest ∧
    (parseNumber digit 32 mtu).isSome = true ∧ IsIp4 digit ip
  | .ifconfig6 => False
  | _ => True

/-- The form of the argument of a message, and what the session has to have for it. -/
def MessageServed : Message → Prop
  | .password => ∀ front rest needed behind,
    CutAt '\'' argument front rest → CutAt '\'' rest needed behind → needed = "Auth".toList →
      ¬ "Verification Failed".toList <+: argument → ∀ valueOf, s.username ≠ .other valueOf
  | .needOk => ∃ front rest needed behind kind extra,
    CutAt '\'' argument front rest ∧ CutAt '\'' rest needed behind ∧
      CutAt ':' argument kind extra ∧ NeedServed digit s extra (needOf needed)
  | .byteCount => ∃ bytesIn bytesOut, CutAt ',' argument bytesIn bytesOut ∧
    (parseNumber digit 64 bytesIn).isSome = true ∧ (parseNumber digit 64 bytesOut).isSome = true
  | .state => ∃ time rest currentstate text,
    CutAt ',' argument time rest ∧ CutAt ',' rest currentstate text ∧
      (ConfProfile.processState P (String.ofList currentstate) = s.status ∨ s.ntfDelegate = true)
  | .log => ∃ time rest flags rest' level msg,
    CutAt ',' argument time rest ∧ CutAt ',' rest flags rest' ∧ CutAt ',' rest' level msg ∧
      (parseNumber digit 32 level).isSome = true
  | _ => True

/-- The line is no message, or it has the form of its kind. -/
def Served (command : List Char) : Prop :=
  ∀ front argument, CutAt ':' command front argument → front.head? = some '>' →
    MessageServed P digit s argument (messageOf front.tail)

variable {P digit s argument}

@[simp] theorem elementAt_eq_ok {args : List (List Char)} {index : Nat} {arg : List Char} :
    elementAt args index = .ok arg ↔ args[index]? = some arg := by
  rw [elementAt]
  cases args[index]? <;> simp

@[simp] theorem elementAt_returns {args : List (List Char)} {index : Nat} :
    Returns (elementAt args index) ↔ index < args.length := by
  rw [elementAt]
  cases hget : args[index]? with
  | none => exact iff_of_false (not_returns_error _) (List.getElem?_eq_none_iff.mp hget).not_gt
  | some arg => exact iff_of_true (returns_ok arg) (List.getElem?_eq_some_iff.mp hget).1

theorem processByteCount_returns : Returns (processByteCount digit s argument) ↔
    MessageServed P digit s argument .byteCount := by
  simp only [MessageServed, ← cut_eq_some]
  rw [processByteCount]
  cases cut ',' argument with
  | none => simp
  | some r =>
    obtain ⟨bytesIn, bytesOut⟩ := r
    simp only [returns_bind, ← returns_parseLong]
    constructor
    · intro h
      obtain ⟨x, hx, y, hy, -⟩ := h
      exact ⟨bytesIn, bytesOut, rfl, ⟨x, hx⟩, ⟨y, hy⟩⟩
    · intro h
      obtain ⟨bytesIn', bytesOut', heq, ⟨x, hx⟩, ⟨y, hy⟩⟩ := h
      cases heq
      exact ⟨x, hx, y, hy, returns_ok _⟩

theorem setConnectionStatus_returns {status : ConnectionStatus} :
    Returns (setConnectionStatus s status) ↔ status = s.status ∨ s.ntfDelegate = true := by
  rw [setConnectionStatus]
  split_ifs with hstatus hntf
  · exact iff_of_true (returns_ok _) (Or.inr hntf)
  · exact iff_of_false (not_returns_error _) (not_or.mpr ⟨hstatus, hntf⟩)
  · exact iff_of_true (returns_ok _) (Or.inl (not_not.mp hstatus))

theorem processState_returns : Returns (processState P s argument) ↔
    MessageServed P digit s argument .state := by
  simp only [MessageServed, ← cut_eq_some]
  rw [processState]
  cases hcut : cut ',' argument with
  | none =>
    rw [splitLimit_of_cut_eq_none hcut]
    simp [returns_bind]
  | some r =>
    obtain ⟨time, rest⟩ := r
    rw [splitLimit_of_cut hcut]
    cases hcut' : cut ',' rest with
    | none =>
      rw [splitLimit_of_cut_eq_none hcut']
      simp [returns_bind, hcut']
    | some r' =>
      obtain ⟨currentstate, text⟩ := r'
      rw [splitLimit_of_cut hcut']
      simp [returns_bind, hcut', splitLimit, setConnectionStatus_returns]

theorem processLogMessage_returns : Returns (processLogMessage digit s argument) ↔
    MessageServed P digit s argument .log := by
  simp only [MessageServed, ← cut_eq_some]
  rw [processLogMessage]
  cases hcut : cut ',' argument with
  | none =>
    rw [splitLimit_of_cut_eq_none hcut]
    simp [returns_bind]
  | some r =>
    obtain ⟨time, rest⟩ := r
    rw [splitLimit_of_cut hcut]
    cases hcut' : cut ',' rest with
    | none =>
      rw [splitLimit_of_cut_eq_none hcut']
      simp [returns_bind, hcut']
    | some r' =>
      obtain ⟨flags, rest'⟩ := r'
      rw [splitLimit_of_cut hcut']
      cases hcut'' : cut ',' rest' with
      | none =>
        rw [splitLimit_of_cut_eq_none hcut'']
        simp [returns_bind, hcut', hcut'']
      | some r'' =>
        obtain ⟨level, msg⟩ := r''
        rw [splitLimit_of_cut hcut'']
        simp [returns_bind, hcut', hcut'', splitLimit, ← returns_parseInt]
        exact Iff.rfl

theorem quoted_eq_ok {r : List Char × List Char} : quoted argument = .ok r ↔
    ∃ front rest, CutAt '\'' argument front rest ∧ CutAt '\'' rest r.1 r.2 := by
  simp only [← cut_eq_some]
  rw [quoted]
  cases hcut : cut '\'' argument with
  | none => simp
  | some r' =>
    obtain ⟨front, rest⟩ := r'
    rw [Option.bind_some]
    cases hcut' : cut '\'' rest with
    | none => simp [hcut']
    | some r'' => simp [hcut']

theorem asString_returns {value : OptionValue} :
    Returns value.asString ↔ ∀ valueOf, value ≠ .other valueOf := by
  cases value <;> simp [OptionValue.asString]

/-- The text for a missing quote is caught, so that only the cast of the user name throws. -/
theorem processPWCommand_returns : Returns (processPWCommand s argument) ↔
    MessageServed P digit s argument .password := by
  rw [processPWCommand]
  cases hquoted : quoted argument with
  | error e =>
    refine iff_of_true (returns_ok _) fun front rest needed behind hfront hrest => ?_
    have hok : quoted argument = .ok (needed, behind) :=
      quoted_eq_ok.mpr ⟨front, rest, hfront, hrest⟩
    rw [hquoted] at hok
    cases hok
  | ok r =>
    obtain ⟨needed, behind⟩ := r
    have hserved : MessageServed P digit s argument .password ↔ (needed = "Auth".toList →
        ¬ "Verification Failed".toList <+: argument → ∀ valueOf, s.username ≠ .other valueOf) := by
      constructor
      · intro h
        obtain ⟨front, rest, hfront, hrest⟩ := quoted_eq_ok.mp hquoted
        exact h front rest needed behind hfront hrest
      · intro h front rest needed' behind' hfront hrest
        have hok : quoted argument = .ok (needed', behind') :=
          quoted_eq_ok.mpr ⟨front, rest, hfront, hrest⟩
        rw [hquoted] at hok
        cases hok
        exact h
    rw [hserved]
    dsimp only
    split_ifs with hfailed hkey hauth
    · exact iff_of_true (returns_ok _) fun _ hnot => absurd hfailed hnot
    · refine iff_of_true (returns_ok _) fun heq => ?_
      rw [hkey] at heq
      exact absurd heq (by decide)
    · rw [returns_bind]
      constructor
      · intro h _ _
        obtain ⟨username, husername, -⟩ := h
        exact asString_returns.mp ⟨username, husername⟩
      · intro h
        obtain ⟨username, husername⟩ := asString_returns.mpr (h hauth hfailed)
        exact ⟨username, husername, returns_ok _⟩
    · exact iff_of_true (returns_ok _) fun heq => absurd heq hauth

theorem addRoute4_returns {ip mask : List Char} : Returns (addRoute4 digit s ip mask) ↔
    (IsIp4 digit mask → s.routerLoop = true) := by
  rw [addRoute4]
  rcases mask4StrToInt_cases digit mask with ⟨hip4, n, heq⟩ | ⟨hip4, heq⟩
  · rw [heq]
    dsimp only
    split_ifs with hloop
    · exact iff_of_true (returns_ok _) fun _ => hloop
    · exact iff_of_false (not_returns_error _) fun h => hloop (h hip4)
  · rw [heq]
    exact iff_of_true (returns_ok _) fun h => absurd h hip4

theorem setLocalIp4_returns {ip : List Char} :
    Returns (setLocalIp4 digit s ip) ↔ IsIp4 digit ip := by
  rw [setLocalIp4, bind_pure_comp, returns_map, returns_ip4StrToInt]

/-- Either the text is no address, or the native method is missing. -/
theorem not_returns_setLocalIp6 (ip : List Char) : ¬ Returns (setLocalIp6 digit s ip) := by
  rw [setLocalIp6, returns_bind]
  intro h
  obtain ⟨ip6, hip6, h⟩ := h
  rw [setMasqueradeIp6, if_neg (not_not.mpr (ip6StrToBytes_length hip6))] at h
  exact not_returns_error _ h

theorem processNeed_returns {needed extra : List Char} :
    Returns (processNeed digit s needed extra) ↔ NeedServed digit s extra (needOf needed) := by
  rw [processNeed]
  cases needOf needed with
  | route =>
    dsimp only [NeedServed]
    split_ifs with hlen
    · rcases hparts : Fields.split ' ' extra with _ | ⟨ip, _ | ⟨mask, rest⟩⟩
      · rw [hparts] at hlen
        exact absurd hlen (by simp)
      · rw [hparts] at hlen
        exact absurd hlen (by simp)
      · rw [hparts] at hlen
        have hroute : Returns (addRoute4 digit s ip mask) ↔
            (IsIp4 digit mask → s.routerLoop = true) := addRoute4_returns
        simp only [returns_bind, elementAt_eq_ok, returns_pure, and_true]
        constructor
        · intro h hlen' mask' hmask' hip4
          obtain ⟨ip', hip', mask'', hmask'', h⟩ := h
          cases hip'
          cases hmask'
          cases hmask''
          exact hroute.mp h hip4
        · intro h
          exact ⟨ip, rfl, mask, rfl, hroute.mpr (h hlen mask rfl)⟩
    · exact iff_of_true (returns_ok _) fun h => absurd h hlen
  | route6 =>
    dsimp only [NeedServed]
    rcases Fields.split ' ' extra with _ | ⟨network, _ | ⟨device, rest⟩⟩
    · simp [returns_bind]
    · simp [returns_bind]
    · simp [returns_bind]
  | ifconfig =>
    dsimp only [NeedServed]
    rcases Fields.split ' ' extra with _ | ⟨ip, _ | ⟨mask, _ | ⟨mtu, _ | ⟨mode, rest⟩⟩⟩⟩
    · simp [returns_bind]
    · simp [returns_bind]
    · simp [returns_bind]
    · simp [returns_bind]
    · simp only [returns_bind, elementAt_eq_ok, ← returns_parseInt]
      constructor
      · intro h
        obtain ⟨mtu', hmtu, n, hn, ip', hip, -, -, -, -, s', hs', -⟩ := h
        cases hmtu
        cases hip
        exact ⟨ip, mask, mtu, mode, rest, rfl, ⟨n, hn⟩, setLocalIp4_returns.mp ⟨s', hs'⟩⟩
      · intro h
        obtain ⟨ip', mask', mtu', mode', rest', heq, ⟨n, hn⟩, hip4⟩ := h
        cases heq
        obtain ⟨s', hs'⟩ := setLocalIp4_returns.mpr hip4
        exact ⟨mtu, rfl, n, hn, ip, rfl, mask, rfl, mode, rfl, s', hs', returns_pure _⟩
  | ifconfig6 =>
    refine iff_of_false (fun h => ?_) id
    obtain ⟨s', hs', -⟩ := returns_bind.mp h
    exact not_returns_setLocalIp6 _ ⟨s', hs'⟩
  | openTun =>
    dsimp only
    split_ifs
    · exact iff_of_true (returns_ok _) trivial
    · exact iff_of_true (returns_ok _) trivial
  | protectFd | dnsServer | dnsDomain | persistTunAction | unknown =>
    exact iff_of_true (returns_ok _) trivial

theorem processNeedCommand_returns : Returns (processNeedCommand digit s argument) ↔
    MessageServed P digit s argument .needOk := by
  rw [processNeedCommand, returns_bind]
  simp only [returns_bind, elementAt_eq_ok, processNeed_returns, quoted_eq_ok, splitLimit_two]
  constructor
  · intro h
    obtain ⟨⟨needed, behind⟩, ⟨front, rest, hfront, hrest⟩, extra, ⟨kind, hkind⟩, h⟩ := h
    exact ⟨front, rest, needed, behind, kind, extra, hfront, hrest, hkind, h⟩
  · intro h
    obtain ⟨front, rest, needed, behind, kind, extra, hfront, hrest, hkind, h⟩ := h
    exact ⟨(needed, behind), ⟨front, rest, hfront, hrest⟩, extra, ⟨kind, hkind⟩, h⟩

theorem processMessage_returns (message : Message) :
    Returns (processMessage P digit s argument message) ↔
      MessageServed P digit s argument message := by
  cases message with
  | password => exact processPWCommand_returns
  | needOk => exact processNeedCommand_returns
  | byteCount => exact processByteCount_returns
  | state => exact processState_returns
  | log => exact processLogMessage_returns
  | info | hold | proxy | rsaSign | unrecognized => exact iff_of_true (returns_ok _) trivial

theorem processCommand_of_message {front : List Char} {command : List Char}
    (hcut : CutAt ':' command front argument) (hfront : front.head? = some '>') :
    processCommand P digit s command = processMessage P digit s argument (messageOf front.tail) := by
  obtain ⟨cmd, rfl⟩ := List.head?_eq_some_iff.mp hfront
  obtain rfl := hcut.eq
  rw [List.cons_append] at hcut ⊢
  unfold processCommand
  rw [cut_eq_some.mpr hcut]
  rfl

theorem processCommand_of_not {command : List Char}
    (hnot : ∀ front argument, CutAt ':' command front argument → front.head? ≠ some '>') :
    Returns (processCommand P digit s command) := by
  rw [processCommand]
  · split_ifs
    · exact returns_ok s
    · split
      · exact returns_ok s
      · exact returns_ok _
    · exact returns_ok s
  · intro line r hline hcut
    have hcutAt := cut_eq_some.mp hcut
    have heq := hline.symm.trans hcutAt.eq
    refine hnot r.1 r.2 hcutAt ?_
    rcases hr : r.1 with _ | ⟨c, front⟩
    · rw [hr] at heq
      exact absurd (List.cons.inj heq).1 (by decide)
    · rw [hr] at heq
      exact congrArg some (List.cons.inj heq).1.symm

/-- One line: the handlers return if and only if it has the form of its kind. -/
theorem returns_processCommand (command : List Char) :
    Returns (processCommand P digit s command) ↔ Served P digit s command := by
  by_cases hmessage : ∃ front argument, CutAt ':' command front argument ∧ front.head? = some '>'
  · obtain ⟨front, argument, hcut, hfront⟩ := hmessage
    rw [processCommand_of_message hcut hfront, processMessage_returns]
    constructor
    · intro h front' argument' hcut' _
      have hsame := (cut_eq_some.mpr hcut').symm.trans (cut_eq_some.mpr hcut)
      cases hsame
      exact h
    · intro h
      exact h front argument hcut hfront
  · refine iff_of_true (processCommand_of_not fun front argument hcut hfront => ?_)
      fun front argument hcut hfront => ?_
    · exact hmessage ⟨front, argument, hcut, hfront⟩
    · exact absurd ⟨front, argument, hcut, hfront⟩ hmessage

end ConfProfile.OpenVpn
