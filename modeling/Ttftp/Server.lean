/-
  The server (`tftpserver`): requests arrive at its listening socket, and each
  transfer gets a socket and a session of its own.

  `HandleRequest` has no early return: after an ERROR message it goes on, with
  whatever `decode` has left in the message.  An exception leaves it through
  `threw`, in the state in which it was thrown; the sub-handlers throw before they
  change anything, except where the exception comes out of a session's `start`.
  Finished sessions are not removed from `sessions`.  The listening socket is open as
  long as the server exists, so that its synchronous sends are those of
  `asyncSendDetached`.

  In the `system` of a server the handlers of its sockets run in any order, until
  an exception leaves one of them.  Between them the files and whatever else the
  operating system offers may change, also the files that the sessions read: by what
  the sessions write themselves, and by other programs.
-/
import Ttftp.Session

namespace Ttftp

open Bytes Asio

structure TftpServer where
  os : OperatingSystem
  rootfolder : Bytes
  /-- the listening socket -/
  io : Io Unit Endpoint
  buffer : Bytes
  currAccEndpoint : Endpoint := default
  sessions : List Session := []
  /-- the files opened so far -/
  opened : List Bytes := []
  /-- the exception that has left `HandleRequest` -/
  threw : Option Exn := none

/-- What the sub-handlers pass on to a new session. -/
structure SessionParams where
  /-- the datagrams already sent from its socket -/
  sent : List (Endpoint × Bytes) := []
  expected_ack : ℤ := 1
  blocksize_to_use : ℕ := defaultBlocksize
  timeout_to_use : UInt8 := retransmissionTime

namespace TftpServer

def bufsize : ℕ := 2048

def supported_options : List Bytes := [blksizeName, timeoutName, tsizeName]

def new (os : OperatingSystem) (rootfolder : Bytes) : TftpServer where
  os := os
  rootfolder := rootfolder
  io := Io.asyncReceiveFrom () { started := true }
  buffer := List.replicate bufsize 0

def sendErrorMsg (errorcode : TftpErrorCode) (msg : Bytes) (s : TftpServer) : TftpServer :=
  { s with
    io := s.io.asyncSendDetached s.currAccEndpoint (ErrorMessage.encode ⟨errorcode.toUInt16, msg⟩) }

/-- `none` if some value is invalid. -/
def parseOptionFields (request : RequestMessage) : Except Exn (Option TransactionOptionValues) :=
  if request.mOptionValues.isEmpty then .ok (some {})
  else (TransactionOptionValues.setOptionsFromMap request.mOptionValues {}).map fun r =>
    if r.1 then some { r.2 with wasSetByClient := true } else none

/-- The common part of the sub-handlers: a new socket is opened, and the options of the
    request are answered by an OACK on it, with the values that `respond` makes of them,
    unless what `queries` asks of them throws.  The processing goes on also after invalid
    ones. -/
def answerOptions (queries : TransactionOptionValues → Bool)
    (respond : TransactionOptionValues → TransactionOptionValues) (request : RequestMessage)
    (s : TftpServer) : Except Exn (SessionParams × TftpServer) :=
  if !s.os.sockets then .error .systemError
  else match parseOptionFields request with
    | .error e => .error e
    | .ok none => .ok ({}, s.sendErrorMsg .optNegotiation
        (ascii "Option negotiation error: one of the option fields contained an invalid value"))
    | .ok (some values) =>
      if values.wasSetByClient then
        if !queries values then .error .systemError
        else match OptionACKMessage.encode { mOptionValues := (respond values).getOptionsAsMap } with
          | .error e => .error e
          | .ok message => .ok ({
              sent := [(s.currAccEndpoint, message)]
              expected_ack := 0
              blocksize_to_use := values.mBlocksize.getD defaultBlocksize
              timeout_to_use := values.mTimeout.getD retransmissionTime }, s)
      else .ok ({}, s)

/-- The size of the file is sent back if the client asks for it. -/
def respondWithSize (size_of_file : UInt64) (values : TransactionOptionValues) : TransactionOptionValues :=
  if values.mTransferSize.isSome then { values with mTransferSize := some size_of_file } else values

def startSender (filename : Bytes) (p : SessionParams) (s : TftpServer) : TftpServer :=
  let sender := Tftpsender.newConnected { started := true, wire := p.sent }
    (.ofFile (s.os.content filename)) s.currAccEndpoint p.expected_ack p.blocksize_to_use p.timeout_to_use
  { s with opened := s.opened ++ [filename], sessions := s.sessions ++ [.sender sender.start] }

def startReceiver (filename : Bytes) (p : SessionParams) (s : TftpServer) : TftpServer :=
  let receiver := TftpReceiver.newConnected { started := true, wire := p.sent }
    (s.os.output filename) s.currAccEndpoint p.blocksize_to_use p.timeout_to_use
  { s with opened := s.opened ++ [filename], sessions := s.sessions ++ [.receiver receiver.start] }

def handleSubRequest_RRQ (request : RequestMessage) (s : TftpServer) : Except Exn TftpServer :=
  let filename_to_read := s.rootfolder ++ request.mFilename
  (s.answerOptions (fun _ => true) (respondWithSize (s.os.fileSize filename_to_read)) request).map fun r =>
    r.2.startSender filename_to_read r.1

/-- Whether the space for an upload can be queried, where it is. -/
def spaceKnown (s : TftpServer) (values : TransactionOptionValues) : Bool :=
  values.mTransferSize.isNone || (s.os.available s.rootfolder).isSome

/-- The size of the file is answered as it is; whether it fits on the disk makes no
    difference. -/
def handleSubRequest_WRQ (request : RequestMessage) (s : TftpServer) : Except Exn TftpServer :=
  let filename_to_write := s.rootfolder ++ request.mFilename
  (s.answerOptions s.spaceKnown id request).map fun r => r.2.startReceiver filename_to_write r.1

/-- A message that is neither of the two requests is left alone. -/
def handleSubRequest (request : RequestMessage) (s : TftpServer) : Except Exn TftpServer :=
  if request.isRRQ then s.handleSubRequest_RRQ request
  else if request.isWRQ then s.handleSubRequest_WRQ request
  else .ok s

/-- An exception has left the `start` of a session that was not there before. -/
def startThrew (before s : TftpServer) : Bool := (s.sessions.drop before.sessions.length).any (·.threw)

/-- An error of the receive ends the listening, and so does an exception. -/
def handleRequest (past : Bytes) (err : ErrorCode) (receivedbytes : ℕ) (s : TftpServer) : TftpServer :=
  if err = .success then
    let s := if receivedbytes < 2 then
      s.sendErrorMsg .illegalOp (ascii "Did not receive a valid opcode") else s
    let r := RequestMessage.decode past {} (s.buffer.take receivedbytes)
    let s := if r.1 then s else s.sendErrorMsg .illegalOp
      (ascii "Did not receive a valid request message. Opcode or mode were not recognized")
    match s.handleSubRequest r.2 with
    | .error e => { s with threw := some e }
    | .ok s' =>
      if startThrew s s' then s'
      else { s' with
        buffer := List.replicate s'.buffer.length 0
        io := s'.io.asyncReceiveFrom () }
  else s

/-! ## The system -/

def store (src : Endpoint) (d : Bytes) (s : TftpServer) : TftpServer :=
  { s with currAccEndpoint := src, buffer := d ++ s.buffer.drop d.length }

/-- An exception has left a handler. -/
def dead (s : TftpServer) : Bool := s.threw.isSome || s.sessions.any (·.threw)

/-- The listening socket; `past` is what follows the received message in memory. -/
def proactor (past : Bytes) : Proactor TftpServer Unit Endpoint where
  io := io
  setIo io s := { s with io := io }
  threw := dead
  capacity s := s.buffer.length
  store := store
  start := id
  onReceive _ := handleRequest past
  onSend _ _ := id
  onTimer _ := id

/-- A datagram is received and handled. -/
def receive (past : Bytes) (src : Endpoint) (d : Bytes) (s : TftpServer) : TftpServer :=
  ({ s with io := { s.io with receives := [] } }.store src (d.take bufsize)).handleRequest past .success
    (min d.length bufsize)

end TftpServer

/-- The events of a server: those of its listening socket, and those of its
    sessions. -/
inductive ServerEvent where
  | listen (past : Bytes) (e : Event Endpoint)
  | session (n : ℕ) (e : Event Endpoint)

namespace TftpServer

def step (s : TftpServer) : ServerEvent → Option TftpServer
  | .listen past e => (proactor past).step s e
  | .session n e =>
    if s.dead then none
    else s.sessions[n]?.bind fun x => (x.step e).map fun x' => { s with sessions := s.sessions.set n x' }

end TftpServer

/-- What happens in a run: an event of the server, or a change of what it finds. -/
inductive HostEvent where
  | server (e : ServerEvent)
  /-- what new transfers find has changed -/
  | changes (os : OperatingSystem)
  /-- the file that the session `n` has opened has changed -/
  | rewritten (n : ℕ) (content : Bytes)

namespace TftpServer

def hostStep (s : TftpServer) : HostEvent → Option TftpServer
  | .server e => s.step e
  | .changes os => if s.dead then none else some { s with os := os }
  | .rewritten n content =>
    if s.dead then none
    else s.sessions[n]?.map fun x => { s with sessions := s.sessions.set n (x.rewrite content) }

def system (os : OperatingSystem) (rootfolder : Bytes) : Lts TftpServer HostEvent where
  init s := s = new os rootfolder
  step := hostStep

end TftpServer

end Ttftp
