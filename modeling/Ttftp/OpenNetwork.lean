/-
  A client and a server in an open network.

  A datagram that has been sent may arrive at any later time, any number of times, or
  never; timers expire and operations fail at any time; and other hosts send what they
  like, but not under an address of client or server.  A server may thus serve any number
  of others at the same time.

  Two things are needed of the others.  As long as the client does not know its peer, it
  cannot tell an answer from anything else, so that until then only what the server has
  sent reaches it.  And what the client downloads does not change on the server meanwhile;
  all other files may.
-/
import Ttftp.Lib.Parties
import Ttftp.EndToEnd

namespace Ttftp

open Bytes Asio

/-- The addresses of the sockets; those of different sessions may be the same. -/
structure Hosts where
  client : Endpoint
  server : ServerSocket → Endpoint

/-- The peer, once it is known. -/
def Session.peer? : Session → Option Endpoint
  | sender s => if s.isConnected then some s.mReceiverEndpoint else none
  | receiver r => if r.isConnected then some r.mSenderEndpoint else none

def TftpClient.peer? (c : TftpClient) : Option Endpoint := c.session.bind Session.peer?

/-- The sockets that a server has opened so far. -/
def TftpServer.sockets (s : TftpServer) : List ServerSocket :=
  .listen :: (List.range s.sessions.length).map .session

namespace Hosts
variable (H : Hosts)

/-- What the server has sent to the client may arrive there, and what others send once the
    client knows its peer. -/
def reachesClient (c : TftpClient) (s : TftpServer) : Event Endpoint → Bool
  | .deliver src d => c.peer?.any (fun peer => decide (peer ≠ src)) ||
      s.sockets.any fun k => decide (H.server k = src) && (s.wireAt k).any fun p => decide (p = (H.client, d))
  | _ => true

/-- What the client has sent to a socket may arrive there, and what others send. -/
def reachesServer (c : TftpClient) (k : ServerSocket) : Event Endpoint → Bool
  | .deliver src d => decide (src ≠ H.client) || c.wire.any fun p => decide (p = (H.server k, d))
  | _ => true

theorem reachesClient_deliver {c : TftpClient} {s : TftpServer} {src : Endpoint} {d : Bytes} :
    H.reachesClient c s (.deliver src d) = true ↔ (∃ peer, c.peer? = some peer ∧ peer ≠ src) ∨
      ∃ k ∈ s.sockets, H.server k = src ∧ (H.client, d) ∈ s.wireAt k := by
  simp [reachesClient, Option.any_eq_true]

theorem reachesServer_deliver {c : TftpClient} {k : ServerSocket} {src : Endpoint} {d : Bytes} :
    H.reachesServer c k (.deliver src d) = true ↔ src ≠ H.client ∨ (H.server k, d) ∈ c.wire := by
  simp [reachesServer]

end Hosts

/-- A call of the client's `start`, and what client and server find on their disks. -/
structure Call where
  hosts : Hosts
  filename : Bytes
  IN_optionVals : TransactionOptionValues
  clientRoot : Bytes
  serverRoot : Bytes
  clientOs : OperatingSystem
  serverOs : OperatingSystem

namespace Call
variable (U : Call) (requestType : TftpOpcode)

def client : TftpClient :=
  (TftpClient.new U.clientOs U.clientRoot).start (U.hosts.server .listen) requestType U.filename
    U.IN_optionVals .octet

def server : TftpServer := .new U.serverOs U.serverRoot

def clientPath : Bytes := (U.clientOs.absolute U.clientRoot).getD [] ++ U.filename

def serverPath : Bytes := U.serverRoot ++ U.filename

/-- Whether new transfers still find the same file as the call. -/
def keeps (os : OperatingSystem) : Bool :=
  decide (os.content U.serverPath = U.serverOs.content U.serverPath ∧
    os.fileSize U.serverPath = U.serverOs.fileSize U.serverPath)

/-- What may happen to the server.  Nothing is required of the files of an upload. -/
def allowsServer (c : TftpClient) (s : TftpServer) : HostEvent → Bool
  | .server e => U.hosts.reachesServer c e.socket e.event
  | .changes os => decide (requestType ≠ .rrq) || U.keeps os
  | .rewritten n content => decide (requestType ≠ .rrq) || decide (U.serverOs.content U.serverPath = some content) ||
      s.sessions[n]?.any fun x => x.peer?.any (· ≠ U.hosts.client)

/-- The client that makes the call, and the server. -/
def parties : Parties TftpClient TftpServer ClientEvent HostEvent where
  left := { init := fun c => c = U.client requestType, step := TftpClient.step }
  right := TftpServer.system U.serverOs U.serverRoot
  allowsLeft c s e := U.hosts.reachesClient c s e.event
  allowsRight := U.allowsServer requestType

def system : Lts (TftpClient × TftpServer) (ClientEvent ⊕ HostEvent) := (U.parties requestType).system

end Call

end Ttftp
