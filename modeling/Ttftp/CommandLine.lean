/-
  The command line (`main`).

  `run` looks for the named arguments anywhere in each argument, also in the name of the
  program, and takes the address of the server from the last one.  `print_usage_msg` does not
  return.  The name of the file and the root folder are not looked at.  An exception that
  leaves the start of a client is reported; that there is no working directory, or that the
  server cannot listen at its port, ends the program.

  What the program prints is left out, and how it waits for the callback of the client.
-/
import Ttftp.Client
import Ttftp.Server
import Ttftp.Lib.NamedArgs

namespace Ttftp

open Bytes

def serverListenPort : UInt16 := 44500

/-- What the program does after it has read its arguments. -/
inductive Program where
  | print_usage_msg
  /-- a client that has been started -/
  | client (c : TftpClient)
  | server (s : TftpServer) (port : UInt16)
  /-- an exception ends the program -/
  | threw

namespace CommandLine

def blksizeArg : Bytes := ascii "--blksize="
def fileArg : Bytes := ascii "--file="
def portArg : Bytes := ascii "--port="
def requestArg : Bytes := ascii "--request="
def rootArg : Bytes := ascii "--root="
def timeoutArg : Bytes := ascii "--timeout="
def typeArg : Bytes := ascii "--type="

/-- The map before any argument has been read, in the order of its keys. -/
def namedArgValues (workingDirectory : Bytes) : List (Bytes × Bytes) := [
  (blksizeArg, []),
  (fileArg, []),
  (portArg, []),
  (requestArg, []),
  (rootArg, workingDirectory),
  (timeoutArg, []),
  (typeArg, [])]

/-- One argument: the value behind the first key that occurs in it; `none` where a value is
    already there. -/
def readArg (currArg : Bytes) : List (Bytes × Bytes) → Option (List (Bytes × Bytes))
  | [] => some []
  | (key, value) :: rest => match NamedArgs.find currArg key with
    | some namedArgPos =>
      if value = [] then some ((key, currArg.drop (namedArgPos + key.length)) :: rest) else none
    | none => (readArg currArg rest).map ((key, value) :: ·)

def readArgs : List Bytes → List (Bytes × Bytes) → Option (List (Bytes × Bytes))
  | [], m => some m
  | currArg :: argv, m => (readArg currArg m).bind (readArgs argv)

/-- The value of a key that is in the map. -/
def value (m : List (Bytes × Bytes)) (key : Bytes) : Bytes := (m.lookup key).getD []

/-- A number that has to be in a range, if there is one; `none` where it is not. -/
def inRange (low high : ℤ) (text : Bytes) : Option (Option ℤ) :=
  if text = [] then some none
  else if atoi text < low ∨ atoi text > high then none
  else some (some (atoi text))

def clientTransValues (m : List (Bytes × Bytes)) : Option TransactionOptionValues :=
  match inRange 8 65464 (value m blksizeArg), inRange 1 255 (value m timeoutArg) with
  | some blksize, some timeout => some {
      mBlocksize := blksize.map Int.toNat
      mTimeout := timeout.map fun t => UInt8.ofNat t.toNat }
  | _, _ => none

/-- The port is converted to 16 bits as it is. -/
def port (m : List (Bytes × Bytes)) : UInt16 :=
  if value m portArg = [] then serverListenPort else UInt16.ofInt (atoi (value m portArg))

def requestType (m : List (Bytes × Bytes)) : TftpOpcode :=
  if value m requestArg = ascii "write" then .wrq else if value m requestArg = ascii "read" then .rrq else .invalid

/-- The end of `run`, for a map of named arguments. -/
def launch (os : OperatingSystem) (address : Option Address) (m : List (Bytes × Bytes)) : Program :=
  if value m typeArg = ascii "client" then
    match address, clientTransValues m with
    | some address, some client_trans_values =>
      .client ((TftpClient.new os (value m rootArg)).start ⟨address, port m⟩ (requestType m) (value m fileArg)
        client_trans_values .octet)
    | _, _ => .print_usage_msg
  else if value m typeArg = ascii "server" then
    if os.listens (port m) then .server (.new os (value m rootArg)) (port m) else .threw
  else .print_usage_msg

/-- `makeAddress` reads an address, if it is one. -/
def run (os : OperatingSystem) (makeAddress : Bytes → Option Address) (argv : List Bytes) : Program :=
  match argv.getLast? with
  | none => .print_usage_msg
  | some argIP => match os.absolute (ascii "./") with
    | none => .threw
    | some workingDirectory => match readArgs argv (namedArgValues workingDirectory) with
      | none => .print_usage_msg
      | some m => launch os (makeAddress argIP) m

end CommandLine

end Ttftp
