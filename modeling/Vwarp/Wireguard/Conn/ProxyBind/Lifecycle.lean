import Vwarp.Lib.Machine
import Vwarp.Wireguard.Conn.ProxyBind.Associate

/-!
# The lifecycle of a `ProxyBind`

`Open`, `Send` and `Close` are called on a bind in any order.  `Open` looks at `udpConn` to
decide whether there is an association, so `udpConn` has to be `nil` unless there is one
(`ProxyBind.Valid`).

The connection and the socket that are open are always those of the bind (`Owned`), whatever the
proxy does: nothing leaks.  But an association that fails after the UDP socket was opened leaves
the closed socket in `udpConn`.  The next `Open` then reports success and asks the proxy for
nothing.  As long as no association fails at that point the bind stays valid, and every such
failure breaks it: `valid_of_timely` has both.
-/

namespace Vwarp.Wireguard.Conn

open Vwarp.Go Vwarp.Lib

namespace ProxyBind

/-- There is an association for the socket of the bind: both ends of it are open and the relay is
the one that the proxy named. -/
structure Associated (s : ProxyBind) (udpConn : Nat) : Prop where
  socket_open : s.sockets.IsOpen udpConn
  granted : ∃ conn relay, s.proxyConn = some conn ∧ s.conns.IsOpen conn ∧
    s.udpRelayAddr = some relay ∧ ⟨udpConn, conn, relay⟩ ∈ s.associations

/-- `udpConn` is set only while there is an association. -/
def Valid (s : ProxyBind) : Prop := ∀ udpConn, s.udpConn = some udpConn → s.Associated udpConn

/-- The bind is as if it was closed: it has no socket, and nothing is open. -/
structure AsIfClosed (s : ProxyBind) : Prop where
  udpConn : s.udpConn = none
  conns : ∀ i, ¬ s.conns.IsOpen i
  sockets : ∀ i, ¬ s.sockets.IsOpen i

/-- What is open belongs to the bind. -/
structure Owned (s : ProxyBind) : Prop where
  conns : ∀ i, s.conns.IsOpen i → s.proxyConn = some i
  sockets : ∀ i, s.sockets.IsOpen i → s.udpConn = some i
  /-- There is a connection only with a socket. -/
  idle : s.udpConn = none → ∀ i, ¬ s.conns.IsOpen i

inductive Label
  | /-- `Open`, with what the network does. -/
    openBind (net : Network)
  | /-- `Send`. -/
    send (bufs : List Bytes) (ep : Endpoint)
  | /-- `Close`. -/
    close

/-- The bind after a call; `Send` only reads it. -/
def next (s : ProxyBind) : Label → Option ProxyBind
  | .openBind net => some (s.openBind net).1
  | .send _ _ => some s
  | .close => some s.close

/-- The calls on a bind for the address of a proxy. -/
def lifecycle (proxyAddress : Bytes) : Machine ProxyBind Label where
  start s := s = newProxyBind proxyAddress
  next := ProxyBind.next

/-- A call that does not start an association which fails after the UDP socket was opened. -/
def Timely (s : ProxyBind) : Label → Prop
  | .openBind net => s.udpConn = none → ¬ net.FailsLate
  | _ => True

variable {s : ProxyBind} {net : Network}

/-! ## What is open -/

theorem Owned.asIfClosed (h : s.Owned) (hnone : s.udpConn = none) : s.AsIfClosed := by
  refine ⟨hnone, h.idle hnone, fun i hopen ↦ ?_⟩
  have hsome := h.sockets i hopen
  cases hnone.symm.trans hsome

theorem AsIfClosed.owned (h : s.AsIfClosed) : s.Owned where
  conns i hopen := absurd hopen (h.conns i)
  sockets i hopen := absurd hopen (h.sockets i)
  idle _ := h.conns

theorem AsIfClosed.early (h : s.AsIfClosed) (hnet : ¬ net.Greets) :
    (s.establishUDPAssociation net).1.AsIfClosed := by
  obtain ⟨err, heq | heq⟩ := establishUDPAssociation_early (s := s) hnet
  · rw [heq]
    exact ⟨h.udpConn, h.conns, h.sockets⟩
  · rw [heq]
    exact ⟨h.udpConn, Handles.not_isOpen_close_alloc h.conns, h.sockets⟩

theorem AsIfClosed.late (h : s.AsIfClosed) (hnet : net.FailsLate) :
    (s.establishUDPAssociation net).1.Owned := by
  obtain ⟨port, err, heq⟩ := establishUDPAssociation_late (s := s) hnet
  rw [heq]
  refine ⟨fun i hopen ↦ ?_, fun i hopen ↦ ?_, fun hnone ↦ ?_⟩
  · exact absurd hopen (Handles.not_isOpen_close_alloc h.conns i)
  · exact absurd hopen (Handles.not_isOpen_close_alloc h.sockets i)
  · cases hnone

theorem AsIfClosed.granted (h : s.AsIfClosed) (hnet : net.Greets) (hnet' : net.Grants) :
    (s.establishUDPAssociation net).1.Owned := by
  obtain ⟨port, -, heq⟩ := establishUDPAssociation_granted (s := s) hnet hnet'
  rw [heq]
  refine ⟨fun i hopen ↦ ?_, fun i hopen ↦ ?_, fun hnone ↦ ?_⟩
  · rw [Handles.eq_next_of_isOpen_alloc h.conns hopen]
    rfl
  · rw [Handles.eq_next_of_isOpen_alloc h.sockets hopen]
    rfl
  · cases hnone

/-- `Open` without a socket asks for an association. -/
theorem openBind_of_none (h : s.udpConn = none) :
    (s.openBind net).1 = (s.establishUDPAssociation net).1 := by
  rw [openBind, h]
  dsimp only
  split
  all_goals
    rename_i heq
    rw [heq]

/-- `Open` with a socket changes nothing. -/
theorem openBind_of_some {udpConn : Nat} (h : s.udpConn = some udpConn) :
    s.openBind net = (s, .ok (s.localPort udpConn)) := by
  rw [openBind, h]

/-- `Open` with an error of the association. -/
theorem openBind_of_error (h : s.udpConn = none) {t : ProxyBind} {err : Bytes}
    (heq : s.establishUDPAssociation net = (t, some err)) :
    s.openBind net = (t, .error (str "proxy initialization failed: " ++ err)) := by
  rw [openBind, h]
  dsimp only
  rw [heq]

/-- `Open` after an association that was granted. -/
theorem openBind_of_ok (h : s.udpConn = none) {t : ProxyBind}
    (heq : s.establishUDPAssociation net = (t, none)) :
    s.openBind net = (t, .ok ((t.udpConn.map t.localPort).getD 0)) := by
  rw [openBind, h]
  dsimp only
  rw [heq]

/-- `Open` keeps that what is open belongs to the bind. -/
theorem Owned.openBind (h : s.Owned) (net : Network) : (s.openBind net).1.Owned := by
  cases hconn : s.udpConn with
  | some udpConn =>
    rw [openBind_of_some hconn]
    exact h
  | none =>
    have hclosed := h.asIfClosed hconn
    rw [openBind_of_none hconn]
    by_cases hgreets : net.Greets
    · by_cases hgrants : net.Grants
      · exact hclosed.granted hgreets hgrants
      · exact hclosed.late ⟨hgreets, hgrants⟩
    · exact (hclosed.early hgreets).owned

/-- `Close` closes what is open. -/
theorem Owned.close (h : s.Owned) : s.close.AsIfClosed :=
  ⟨rfl, Handles.not_isOpen_closeHeld h.conns, Handles.not_isOpen_closeHeld h.sockets⟩

theorem Owned.step {t : ProxyBind} {a : Label} (h : s.Owned) (hnext : s.next a = some t) :
    t.Owned := by
  cases a with
  | openBind net =>
    cases hnext
    exact h.openBind net
  | send bufs ep =>
    cases hnext
    exact h
  | close =>
    cases hnext
    exact h.close.owned

theorem asIfClosed_new (proxyAddress : Bytes) : (newProxyBind proxyAddress).AsIfClosed where
  udpConn := rfl
  conns _ hopen := nomatch hopen
  sockets _ hopen := nomatch hopen

/-! ## What `Open` reports -/

/-- A bind without a socket opens exactly if the proxy grants it a new association. -/
theorem openBind_ok_iff (h : s.udpConn = none) :
    (∃ port, (s.openBind net).2 = .ok port) ↔ net.Greets ∧ net.Grants := by
  constructor
  · rintro ⟨port, hport⟩
    by_contra hnet
    have herr : ∃ t err, s.establishUDPAssociation net = (t, some err) := by
      by_cases hgreets : net.Greets
      · obtain ⟨p, err, heq⟩ := establishUDPAssociation_late (s := s)
          ⟨hgreets, fun hgrants ↦ hnet ⟨hgreets, hgrants⟩⟩
        exact ⟨_, err, heq⟩
      · obtain ⟨err, heq | heq⟩ := establishUDPAssociation_early (s := s) hgreets
        all_goals exact ⟨_, err, heq⟩
    obtain ⟨t, err, heq⟩ := herr
    rw [openBind_of_error h heq] at hport
    cases hport
  · rintro ⟨hgreets, hgrants⟩
    obtain ⟨port, -, heq⟩ := establishUDPAssociation_granted (s := s) hgreets hgrants
    rw [openBind_of_ok h heq]
    exact ⟨_, rfl⟩

theorem dials_openBind (h : s.udpConn = none) : (s.openBind net).1.dials = s.dials + 1 := by
  rw [openBind_of_none h]
  by_cases hgreets : net.Greets
  · by_cases hgrants : net.Grants
    · obtain ⟨port, -, heq⟩ := establishUDPAssociation_granted (s := s) hgreets hgrants
      rw [heq]
      rfl
    · obtain ⟨port, err, heq⟩ := establishUDPAssociation_late (s := s) ⟨hgreets, hgrants⟩
      rw [heq]
      rfl
  · obtain ⟨err, heq | heq⟩ := establishUDPAssociation_early (s := s) hgreets
    · rw [heq]
    · rw [heq]
      rfl

/-! ## Valid binds -/

theorem valid_of_none (h : s.udpConn = none) : s.Valid := by
  intro udpConn hsome
  cases h.symm.trans hsome

theorem associated_of_granted (s : ProxyBind) (hgreets : net.Greets) (hgrants : net.Grants) :
    (s.establishUDPAssociation net).1.Associated s.sockets.next := by
  obtain ⟨port, -, heq⟩ := establishUDPAssociation_granted (s := s) hgreets hgrants
  rw [heq]
  refine ⟨s.sockets.isOpen_next, s.conns.next, _, rfl, s.conns.isOpen_next, rfl, ?_⟩
  exact List.mem_cons_self

theorem udpConn_of_granted (s : ProxyBind) (hgreets : net.Greets) (hgrants : net.Grants) :
    (s.establishUDPAssociation net).1.udpConn = some s.sockets.next := by
  obtain ⟨port, -, heq⟩ := establishUDPAssociation_granted (s := s) hgreets hgrants
  rw [heq]
  rfl

theorem not_valid_of_failsLate (s : ProxyBind) (hnet : net.FailsLate) :
    ¬ (s.establishUDPAssociation net).1.Valid := by
  obtain ⟨port, err, heq⟩ := establishUDPAssociation_late (s := s) hnet
  rw [heq]
  intro hvalid
  have hopen := (hvalid s.sockets.next rfl).socket_open
  exact (Handles.isOpen_close.mp hopen).2 rfl

/-- `Open` leaves a valid bind valid exactly if it does not fail late. -/
theorem Valid.openBind_iff (h : s.Valid) (howned : s.Owned) :
    (s.openBind net).1.Valid ↔ s.Timely (.openBind net) := by
  cases hconn : s.udpConn with
  | some udpConn =>
    rw [openBind_of_some hconn]
    refine iff_of_true h fun hnone ↦ ?_
    cases hconn.symm.trans hnone
  | none =>
    rw [openBind_of_none hconn]
    constructor
    · intro hvalid _ hlate
      exact not_valid_of_failsLate s hlate hvalid
    · intro htimely
      by_cases hgreets : net.Greets
      · have hgrants : net.Grants := by
          by_contra hnot
          exact htimely hconn ⟨hgreets, hnot⟩
        intro udpConn hsome
        rw [udpConn_of_granted s hgreets hgrants] at hsome
        cases hsome
        exact associated_of_granted s hgreets hgrants
      · exact valid_of_none ((howned.asIfClosed hconn).early hgreets).udpConn

theorem Valid.step {t : ProxyBind} {a : Label} (h : s.Valid) (howned : s.Owned)
    (htimely : s.Timely a) (hnext : s.next a = some t) : t.Valid := by
  cases a with
  | openBind net =>
    cases hnext
    exact (h.openBind_iff howned).mpr htimely
  | send bufs ep =>
    cases hnext
    exact h
  | close =>
    cases hnext
    exact valid_of_none rfl

theorem valid_and_owned {proxyAddress : Bytes} (h : (lifecycle proxyAddress).Reach Timely s) :
    s.Valid ∧ s.Owned := by
  refine h.invariant (I := fun s ↦ s.Valid ∧ s.Owned) ?_ ?_
  · rintro s rfl
    exact ⟨valid_of_none rfl, (asIfClosed_new proxyAddress).owned⟩
  · rintro s a t ⟨hvalid, howned⟩ htimely hnext
    exact ⟨hvalid.step howned htimely hnext, howned.step hnext⟩

theorem Valid.associated_of_ok {port : UInt16} (h : (s.openBind net).1.Valid)
    (hok : (s.openBind net).2 = .ok port) :
    ∃ udpConn, (s.openBind net).1.udpConn = some udpConn ∧
      (s.openBind net).1.Associated udpConn := by
  have hsome : ∃ udpConn, (s.openBind net).1.udpConn = some udpConn := by
    cases hconn : s.udpConn with
    | some udpConn =>
      rw [openBind_of_some hconn]
      exact ⟨udpConn, hconn⟩
    | none =>
      obtain ⟨hgreets, hgrants⟩ := (openBind_ok_iff hconn).mp ⟨port, hok⟩
      rw [openBind_of_none hconn]
      exact ⟨_, udpConn_of_granted s hgreets hgrants⟩
  obtain ⟨udpConn, hconn⟩ := hsome
  exact ⟨udpConn, hconn, h udpConn hconn⟩

/-- A timely `Open` that fails leaves the bind as if it was closed. -/
theorem Owned.asIfClosed_of_error {err : Bytes} (h : s.Owned) (htimely : s.Timely (.openBind net))
    (herr : (s.openBind net).2 = .error err) : (s.openBind net).1.AsIfClosed := by
  cases hconn : s.udpConn with
  | some udpConn =>
    rw [openBind_of_some hconn] at herr
    cases herr
  | none =>
    have hgreets : ¬ net.Greets := by
      intro hgreets
      have hgrants : net.Grants := by
        by_contra hnot
        exact htimely hconn ⟨hgreets, hnot⟩
      obtain ⟨port, hok⟩ := (openBind_ok_iff hconn).mpr ⟨hgreets, hgrants⟩
      cases hok.symm.trans herr
    rw [openBind_of_none hconn]
    exact (h.asIfClosed hconn).early hgreets

/-- In every run of timely calls `udpConn` is set only while there is an association, and a call
of `Open` keeps it so exactly if it is timely.  Then it succeeds only with an association, and
when it fails the bind is as if it was closed: the next `Open` dials the proxy again, and
succeeds exactly if the proxy grants a new association. -/
theorem valid_of_timely {proxyAddress : Bytes} (h : (lifecycle proxyAddress).Reach Timely s) :
    s.Valid ∧ ∀ net : Network,
      ((s.openBind net).1.Valid ↔ s.Timely (.openBind net)) ∧
      (s.Timely (.openBind net) →
        (∀ port, (s.openBind net).2 = .ok port →
          ∃ udpConn, (s.openBind net).1.udpConn = some udpConn ∧
            (s.openBind net).1.Associated udpConn) ∧
        ∀ err, (s.openBind net).2 = .error err → (s.openBind net).1.AsIfClosed ∧
          ∀ net' : Network,
            ((s.openBind net).1.openBind net').1.dials = (s.openBind net).1.dials + 1 ∧
            ((∃ port, ((s.openBind net).1.openBind net').2 = .ok port) ↔
              net'.Greets ∧ net'.Grants)) := by
  obtain ⟨hvalid, howned⟩ := valid_and_owned h
  refine ⟨hvalid, fun net ↦ ⟨hvalid.openBind_iff howned, fun htimely ↦ ⟨?_, ?_⟩⟩⟩
  · intro port hok
    exact ((hvalid.openBind_iff howned).mpr htimely).associated_of_ok hok
  · intro err herr
    have hclosed := howned.asIfClosed_of_error htimely herr
    exact ⟨hclosed, fun net' ↦ ⟨dials_openBind hclosed.udpConn, openBind_ok_iff hclosed.udpConn⟩⟩

/-- What a proxy sends that takes the greeting and grants the relay `127.0.0.1:40000`. -/
def granting : Bytes := [5, 0, 5, 0, 0, 1, 127, 0, 0, 1, 0x9c, 0x40]

/-- What a proxy sends that takes the greeting and refuses the request. -/
def refusing : Bytes := [5, 0, 5, 1, 0, 1, 0, 0, 0, 0, 0, 0]

/-- A bind whose association was granted. -/
theorem valid_of_timely_granted :
    ((newProxyBind (str "127.0.0.1:1080")).openBind (.answering 50000 granting)).1.Valid ∧
    ((newProxyBind (str "127.0.0.1:1080")).openBind (.answering 50000 granting)).1.udpRelayAddr =
      some ⟨netIPv4 127 0 0 1, 40000⟩ := by
  have hgrants : (Network.answering 50000 granting).Grants := ⟨rfl, by decide, by decide⟩
  have hreach : (lifecycle (str "127.0.0.1:1080")).Reach Timely
      ((newProxyBind (str "127.0.0.1:1080")).openBind (.answering 50000 granting)).1 :=
    .step (a := .openBind (.answering 50000 granting)) (.start rfl)
      (fun _ hlate ↦ hlate.2 hgrants) rfl
  exact ⟨(valid_of_timely hreach).1, by decide⟩

/-- The proxy refuses the request, and the bind is opened again while the proxy cannot even be
dialled: `Open` reports success, on a socket that is closed and was never associated. -/
theorem opens_closed_socket :
    ∃ s t : ProxyBind, (lifecycle (str "127.0.0.1:1080")).Reachable s ∧
      ((newProxyBind (str "127.0.0.1:1080")).openBind (.answering 50000 refusing)) =
        (s, .error (str "proxy initialization failed: UDP ASSOCIATE failed")) ∧
      s.udpConn = some 0 ∧ ¬ s.sockets.IsOpen 0 ∧ s.associations = [] ∧ ¬ s.Valid ∧
      s.openBind ⟨false, false, [], none, false, str "connection refused"⟩ = (t, .ok 50000) ∧
      t = s ∧ t.dials = 1 := by
  refine ⟨((newProxyBind (str "127.0.0.1:1080")).openBind (.answering 50000 refusing)).1,
    ((newProxyBind (str "127.0.0.1:1080")).openBind (.answering 50000 refusing)).1,
    .step (a := .openBind (.answering 50000 refusing)) (.start rfl) trivial rfl, rfl, rfl,
    by decide, rfl, fun hvalid ↦ ?_, rfl, rfl, rfl⟩
  exact absurd (hvalid 0 rfl).socket_open (by decide)

end ProxyBind

end Vwarp.Wireguard.Conn
