/-
  A client and a server, joined by a network that delivers every datagram exactly
  once, and in order from each socket to each other one.

  As in `FifoTransfer`, no operation fails and no timer expires, and what reaches
  a closed socket is discarded.  A `Setup` is a call of the client's `start` for a
  file that the sending side can read and the receiving side can write.
-/
import Mathlib.Logic.Function.Basic
import Ttftp.Client
import Ttftp.Server
import Ttftp.Transfer

namespace Ttftp

open Bytes Asio

/-- The sockets of a server. -/
inductive ServerSocket where
  | listen
  | session (n : ℕ)
  deriving DecidableEq, Repr

namespace ServerEvent

def socket : ServerEvent → ServerSocket
  | listen _ _ => .listen
  | session n _ => .session n

def event : ServerEvent → Event Endpoint
  | listen _ e => e
  | session _ e => e

end ServerEvent

def ClientEvent.event : ClientEvent → Event Endpoint
  | request _ e => e
  | session e => e

namespace TftpServer

def wireAt (s : TftpServer) : ServerSocket → List (Endpoint × Bytes)
  | .listen => s.io.wire
  | .session n => s.sessions[n]?.elim [] (·.wire)

def isOpenAt (s : TftpServer) : ServerSocket → Bool
  | .listen => s.io.isOpen
  | .session n => s.sessions[n]?.any (·.isOpen)

/-- No handler is ready to run. -/
def Quiet (s : TftpServer) : Prop := s.io.Quiet ∧ ∀ x ∈ s.sessions, x.Quiet

/-- The codes that the sessions have reported. -/
def reports (s : TftpServer) : List TftpUserFacingErrorCode := s.sessions.flatMap (·.callbacks)

end TftpServer

/-- The addresses of the sockets.  Those of the listening socket and of the first
    session are not given to any other one. -/
structure Network where
  client : Endpoint
  server : ServerSocket → Endpoint
  distinct : ∀ k l, k = .listen ∨ k = .session 0 → server k = server l → k = l
  specified : (server .listen).address.is_unspecified = false
  ipv4 : (server .listen).address.is_v4 = true

/-- A client and a server, with the numbers of the datagrams that were delivered
    from each socket of the server, and to it. -/
structure EndToEnd where
  client : TftpClient
  server : TftpServer
  toClient : ServerSocket → ℕ := fun _ => 0
  toServer : ServerSocket → ℕ := fun _ => 0

inductive EndToEndEvent where
  /-- an event of the client; a datagram comes from the socket `k` -/
  | client (k : ServerSocket) (e : ClientEvent)
  | server (e : ServerEvent)
  /-- a datagram reaches a closed socket -/
  | discardToClient (k : ServerSocket)
  | discardToServer (k : ServerSocket)

/-- One more datagram at a socket. -/
def countAt (k : ServerSocket) (n : ℕ) (f : ServerSocket → ℕ) : ServerSocket → ℕ :=
  Function.update f k (f k + n)

namespace EndToEnd

/-- What has been sent from a socket of the server to the client, and back. -/
def fromServer (N : Network) (t : EndToEnd) (k : ServerSocket) : List Bytes :=
  sentTo N.client (t.server.wireAt k)

def fromClient (N : Network) (t : EndToEnd) (k : ServerSocket) : List Bytes :=
  sentTo (N.server k) t.client.wire

def step (N : Network) (t : EndToEnd) : EndToEndEvent → Option EndToEnd
  | .client k e =>
    if fifoAllows (N.server k) (t.fromServer N k)[t.toClient k]? e.event then
      (t.client.step e).map fun c =>
        { t with client := c, toClient := countAt k e.event.isDelivery.toNat t.toClient }
    else none
  | .server e =>
    if fifoAllows N.client (t.fromClient N e.socket)[t.toServer e.socket]? e.event then
      (t.server.step e).map fun s =>
        { t with server := s, toServer := countAt e.socket e.event.isDelivery.toNat t.toServer }
    else none
  | .discardToClient k =>
    if !t.client.isOpen && decide (t.toClient k < (t.fromServer N k).length) then
      some { t with toClient := countAt k 1 t.toClient }
    else none
  | .discardToServer k =>
    if !t.server.isOpenAt k && decide (t.toServer k < (t.fromClient N k).length) then
      some { t with toServer := countAt k 1 t.toServer }
    else none

/-- No handler is ready to run, and no datagram is on its way. -/
structure AtRest (N : Network) (t : EndToEnd) : Prop where
  client : t.client.Quiet
  server : t.server.Quiet
  toClient : ∀ k, t.toClient k = (t.fromServer N k).length
  toServer : ∀ k, t.toServer k = (t.fromClient N k).length

end EndToEnd

/-- A request for the transfer of `F`: which file it is for, and that it can be
    read on the one side and written on the other one. -/
structure Setup (requestType : TftpOpcode) (F : Bytes) where
  network : Network
  filename : Bytes
  clientRoot : Bytes
  serverRoot : Bytes
  clientOs : OperatingSystem
  serverOs : OperatingSystem
  /-- the absolute form of `clientRoot` -/
  clientFolder : Bytes
  absolute : clientOs.absolute clientRoot = some clientFolder
  sockets : clientOs.sockets = true ∧ serverOs.sockets = true
  nulFree : NulFree filename
  rrq : requestType = .rrq → serverOs.content (serverRoot ++ filename) = some F ∧
    serverOs.fileSize (serverRoot ++ filename) = UInt64.ofNat F.length ∧
    clientOs.output (clientFolder ++ filename) = {}
  wrq : requestType = .wrq → clientOs.content (clientFolder ++ filename) = some F ∧
    clientOs.fileSize (clientFolder ++ filename) = UInt64.ofNat F.length ∧
    serverOs.output (serverRoot ++ filename) = {} ∧ (serverOs.available serverRoot).isSome = true

namespace Setup
variable {requestType : TftpOpcode} {F : Bytes}

/-- The client is started with the one option `blksize`, and the server listens. -/
def start (U : Setup requestType F) (bs : ℕ) : EndToEnd where
  client := (TftpClient.new U.clientOs U.clientRoot).start (U.network.server .listen) requestType
    U.filename { mBlocksize := some bs } .octet
  server := .new U.serverOs U.serverRoot

def system (U : Setup requestType F) (bs : ℕ) : Lts EndToEnd EndToEndEvent where
  init t := t = U.start bs
  step := EndToEnd.step U.network

end Setup

/-- The sessions of a transfer: which of them is the client's depends on the
    request. -/
def EndToEnd.Sessions (requestType : TftpOpcode) (t : EndToEnd) (s : Tftpsender) (r : TftpReceiver) : Prop :=
  if requestType = .rrq then t.client.session = some (.receiver r) ∧ t.server.sessions = [.sender s]
  else t.client.session = some (.sender s) ∧ t.server.sessions = [.receiver r]

/-- Both sides have reported success, the receiving one holds the file, and it was
    sent in blocks of `bs` bytes. -/
structure EndToEnd.Completed (requestType : TftpOpcode) (F : Bytes) (bs : ℕ) (t : EndToEnd) : Prop where
  client : t.client.reports = [.noerr]
  server : t.server.reports = [.noerr]
  file : ∃ s r, t.Sessions requestType s r ∧ r.output.content = F ∧
    dataSent s.io.wire = (List.range (F.length / bs + 1)).map fun i =>
      htons TftpOpcode.data.toUInt16 ++ (htons (UInt16.ofNat (i + 1)) ++ block F bs i)

/-- The request leads to a complete transfer: whatever has happened so far, it can come to rest,
    and where it has it is complete. -/
def Setup.Completes {requestType : TftpOpcode} {F : Bytes} (U : Setup requestType F) (bs : ℕ) : Prop :=
  ∀ t, (U.system bs).Reach t →
    (∃ es t', (U.system bs).run t es = some t' ∧ t'.AtRest U.network) ∧
    (t.AtRest U.network → t.Completed requestType F bs)

end Ttftp
