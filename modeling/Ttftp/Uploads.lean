/-
  Uploads to one file of a server.

  The server opens the file of a write request with `binary | app`: what the file holds
  stays, and all that the stream of a session hands over to the system is put at its
  end.  A stream hands over what is written to it piece by piece, and the last piece
  when it is closed after the session.

  Any number of sessions run in the server.  The clients of the uploads to the file
  send blocks of their own files, in any order and any number of times; the other
  clients, and hosts that have no part in a session, send anything.
-/
import Ttftp.Lib.Append
import Ttftp.Server

namespace Ttftp

open Bytes Asio

/-- A file of the server. -/
structure TargetFile where
  /-- which paths denote the file -/
  denotes : Bytes → Bool
  /-- what it holds at first, if it exists -/
  prior : Option Bytes

/-- A server, with the chunks that have been put at the end of the file, each with the
    number of its session. -/
structure Uploads where
  server : TftpServer
  appended : List (ℕ × Bytes) := []

inductive UploadsEvent where
  | server (e : ServerEvent)
  /-- what new transfers find has changed; the streams are still opened afresh -/
  | changes (os : OperatingSystem) (fresh : ∀ path, (os.output path).writes = [])
  /-- the file that session `n` reads has changed -/
  | rewritten (n : ℕ) (content : Bytes)
  /-- the stream of session `n` hands over its next bytes, `size` of them at most -/
  | flush (n size : ℕ)

namespace Uploads

section
variable (T : TargetFile) (u : Uploads)

/-- The receiver of session `n`, if it uploads to the file. -/
def upload (n : ℕ) : Option TftpReceiver :=
  match u.server.opened[n]?, u.server.sessions[n]? with
  | some path, some (.receiver r) => if T.denotes path then some r else none
  | _, _ => none

/-- What the file holds. -/
def content : Bytes := Append.content (T.prior.getD []) u.appended

end

/-- The client of an upload of `F`: a DATA message from it is the block of its number. -/
def clientAllows (F : Bytes) (r : TftpReceiver) : Event Endpoint → Bool
  | .deliver src d => decide (src = r.mSenderEndpoint → ntohs d 0 = TftpOpcode.data.toUInt16 →
      d = htons TftpOpcode.data.toUInt16 ++ (htons (ntohs d opcodeLength) ++
        block F r.blocksize ((ntohs d opcodeLength).toNat - 1)))
  | _ => true

/-- `F n` is the file of the client of session `n`. -/
def serverAllows (T : TargetFile) (F : ℕ → Bytes) (u : Uploads) : ServerEvent → Bool
  | .listen _ _ => true
  | .session n e => (u.upload T n).all fun r => clientAllows (F n) r e

def step (T : TargetFile) (F : ℕ → Bytes) (u : Uploads) : UploadsEvent → Option Uploads
  | .server e =>
    if serverAllows T F u e then (u.server.step e).map fun s => { u with server := s } else none
  | .changes os _ => (u.server.hostStep (.changes os)).map fun s => { u with server := s }
  | .rewritten n content => (u.server.hostStep (.rewritten n content)).map fun s => { u with server := s }
  | .flush n size => (u.upload T n).map fun r => { u with
      appended := u.appended ++
        [(n, (r.output.content.drop (Append.part n u.appended).length).take size)] }

/-- The runs of a server in whose file system streams are opened afresh. -/
def system (T : TargetFile) (F : ℕ → Bytes) (os : OperatingSystem) (rootfolder : Bytes) :
    Lts Uploads UploadsEvent where
  init u := u = ⟨TftpServer.new os rootfolder, []⟩ ∧ ∀ path, (os.output path).writes = []
  step := step T F

/-- An upload has reported success, the last block has been accepted, and the stream
    has handed over all that was written to it. -/
structure Completed (n : ℕ) (r : TftpReceiver) (u : Uploads) : Prop where
  callbacks : r.callbacks = [.noerr]
  lastBlock : ∃ d, r.output.writes.getLast? = some (d, true) ∧ d.length < r.blocksize
  closed : Append.part n u.appended = r.output.content

/-- All uploads to the file have completed. -/
def AllCompleted (T : TargetFile) (u : Uploads) : Prop :=
  ∀ n r, u.upload T n = some r → u.Completed n r

end Uploads

end Ttftp
