/-
  Which files the server opens.

  Both sub-handlers append the name of a request to the root folder as it is: nothing
  is put between the two, and nothing is checked.  `request_inside_iff` says for which
  root folders and names the file is in the root folder all the same.
-/
import Ttftp.Lib.Path
import Ttftp.Proof.Server

namespace Ttftp

open Bytes Asio

namespace TftpServer
variable {os : OperatingSystem} {root past d : Bytes} {s : TftpServer} {src : Endpoint}

/-- The file that is opened, if one is, is that of the decoded name. -/
theorem receive_opened (h : (system os root).Reach s) (hserved : (s.receive past src d).opened ≠ s.opened) :
    (s.receive past src d).opened = s.opened ++ [root ++ (request past d).2.mFilename] := by
  have hh := receive_handles h past src d
  have hrec := received_arrived past src d s
  rw [← reach_rootfolder h]
  generalize s.receive past src d = s' at hh hserved ⊢
  cases hh with
  | ignored _ => exact absurd rfl hserved
  | thrown _ _ => exact absurd rfl hserved
  | invalid _ _ =>
    rw [← hrec]
    rfl
  | valid _ _ =>
    rw [← hrec]
    rfl

/-- Where the root folder ends in a separator, only names that lead up can leave it. -/
theorem receive_inside (h : (system os (root ++ [Path.sep])).Reach s)
    (hserved : (s.receive past src d).opened ≠ s.opened)
    (hup : (Path.Way.of [] (request past d).2.mFilename).up = 0) (cwd : List Bytes) :
    ∃ path, (s.receive past src d).opened = s.opened ++ [path] ∧
      Path.Inside cwd (root ++ [Path.sep]) path :=
  ⟨_, receive_opened h hserved, (Path.inside_append_iff _ _ _).2 (Path.stays_of_up_eq_zero cwd root hup)⟩

/-- **When a request stays inside the root folder.** -/
theorem request_inside_iff (h : (system os root).Reach s)
    (hserved : (s.receive past src d).opened ≠ s.opened) (cwd : List Bytes) :
    (∃ path, (s.receive past src d).opened = s.opened ++ [path] ∧ Path.Inside cwd root path) ↔
      Path.Stays cwd root (request past d).2.mFilename := by
  rw [receive_opened h hserved, ← Path.inside_append_iff]
  constructor
  · rintro ⟨path, hp, hin⟩
    rw [List.append_cancel_left_eq, List.singleton_inj] at hp
    exact hp ▸ hin
  · exact fun hin => ⟨_, rfl, hin⟩

/-- The root folder of the examples: `/s/`. -/
def slashS : Bytes := ascii "/s/"

/-- A request for the file `f` is served in it. -/
theorem request_inside_name : ∃ path,
    (receive [] ⟨1, 1⟩ ([0, 1, 102, 0] ++ ascii "octet" ++ [0]) (new oneFile slashS)).opened = [path] ∧
      Path.Inside [] slashS path :=
  (@request_inside_iff oneFile slashS [] ([0, 1, 102, 0] ++ ascii "octet" ++ [0]) _ ⟨1, 1⟩ (.init rfl)
    (by decide) []).2 (by decide)

/-- Outside it is what a write request for the name `../f` opens. -/
theorem request_not_inside_dotdot : ¬ ∀ os root s past src d cwd, (system os root).Reach s →
    (s.receive past src d).opened ≠ s.opened →
      ∃ path, (s.receive past src d).opened = s.opened ++ [path] ∧ Path.Inside cwd root path := by
  intro h
  obtain ⟨path, hp, hin⟩ := h oneFile slashS (new oneFile slashS) [] ⟨1, 1⟩
    ([0, 2] ++ ascii "../f" ++ [0] ++ ascii "octet" ++ [0]) [] (.init rfl) (by decide)
  have hname : (receive [] ⟨1, 1⟩ ([0, 2] ++ ascii "../f" ++ [0] ++ ascii "octet" ++ [0])
      (new oneFile slashS)).opened = [ascii "/s/../f"] := by decide
  rw [hname] at hp
  rw [← List.singleton_inj.1 hp] at hin
  exact absurd hin (by decide)

/-- Nor does it take a `..` if the root folder does not end in a separator. -/
example : ¬ Path.Stays [] (ascii "/s") (ascii "f") := by decide

end TftpServer

end Ttftp
