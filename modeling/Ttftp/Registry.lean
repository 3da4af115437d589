/-
  The lists in which the server keeps its transfers alive (`mSenderList`,
  `mReceiverList` of `tftpserver`).

  A transfer is registered before it is started, and removed by its completion callback,
  which may run inside its own `start`.  It is named by its position in `sessions`, as the
  source names it by its address.  The runs are those of the server
  (`hostStep`).
-/
import Ttftp.Server

namespace Ttftp

open Bytes Asio

structure TransferLists where
  mSenderList : List ℕ := []
  mReceiverList : List ℕ := []

namespace TransferLists

/-- `push_back`, on the list of the transfer's class. -/
def register (x : Session) (n : ℕ) (l : TransferLists) : TransferLists :=
  match x with
  | .sender _ => { l with mSenderList := l.mSenderList ++ [n] }
  | .receiver _ => { l with mReceiverList := l.mReceiverList ++ [n] }

/-- All occurrences are erased. -/
def removeSenderFromList (senderToRemove : ℕ) (l : TransferLists) : TransferLists :=
  { l with mSenderList := l.mSenderList.filter (· ≠ senderToRemove) }

def removeReceiverFromList (receiverToRemove : ℕ) (l : TransferLists) : TransferLists :=
  { l with mReceiverList := l.mReceiverList.filter (· ≠ receiverToRemove) }

/-- The completion callback, one overload for each class.  The code only selects the text
    that is printed. -/
def handleOperationFinished (x : Session) (n : ℕ) (_err : TftpUserFacingErrorCode) (l : TransferLists) :
    TransferLists :=
  match x with
  | .sender _ => l.removeSenderFromList n
  | .receiver _ => l.removeReceiverFromList n

/-- The callbacks that the transfer `n` has made. -/
def finish (x : Session) (n : ℕ) (codes : List TftpUserFacingErrorCode) (l : TransferLists) : TransferLists :=
  codes.foldl (fun l err => l.handleOperationFinished x n err) l

end TransferLists

/-- The server with its lists. -/
structure RegisteredServer where
  server : TftpServer
  lists : TransferLists := {}

namespace RegisteredServer

/-- A request that starts a transfer registers it and calls its `start`. -/
def afterListen (s s' : TftpServer) (l : TransferLists) : TransferLists :=
  match s'.sessions[s.sessions.length]? with
  | none => l
  | some x => (l.register x s.sessions.length).finish x s.sessions.length x.callbacks

/-- An event of the transfer `n` makes the callbacks that have been added. -/
def afterSession (n : ℕ) (s s' : TftpServer) (l : TransferLists) : TransferLists :=
  match s.sessions[n]?, s'.sessions[n]? with
  | some x, some x' => l.finish x' n (x'.callbacks.drop x.callbacks.length)
  | _, _ => l

def step (r : RegisteredServer) (e : HostEvent) : Option RegisteredServer :=
  (r.server.hostStep e).map fun s => ⟨s, match e with
    | .server (.listen _ _) => afterListen r.server s r.lists
    | .server (.session n _) => afterSession n r.server s r.lists
    | .changes _ | .rewritten _ _ => r.lists⟩

def system (os : OperatingSystem) (rootfolder : Bytes) : Lts RegisteredServer HostEvent where
  init r := r = ⟨.new os rootfolder, {}⟩
  step := step

end RegisteredServer

end Ttftp
