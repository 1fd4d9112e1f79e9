import StepReplay.Environment

set_option autoImplicit false

/-! # Scripted engines

An engine that gives prepared receipts in order and an empty success after the last. It records
every write and every transaction, so what the harness asks for can be read off it. -/

namespace StepReplay

/-- An engine with a script. -/
structure Scripted where
  attached : Bool := true
  /-- The receipts that are still to be given. -/
  script : List Receipt := []
  accounts : Table Bytes Account := []
  /-- The calls made so far, oldest first. -/
  calls : List Call := []

namespace Scripted

/-- The next receipt of the script. -/
def next (s : Scripted) : Receipt :=
  s.script.headD { success := true }

instance : Environment Scripted where
  available s := s.attached
  setAccount s address account := .ok
    { s with accounts := s.accounts.put address account,
             calls := s.calls ++ [.setAccount address account] }
  account s address := .ok ((s.accounts.find? address).getD {})
  execute s transaction commit :=
    (.ok s.next,
      { s with script := s.script.drop 1, calls := s.calls ++ [.execute transaction commit] })

end Scripted

end StepReplay
