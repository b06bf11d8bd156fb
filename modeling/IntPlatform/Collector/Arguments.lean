import IntPlatform.Library.CommandLine
import IntPlatform.Collector.Records

namespace IntPlatform.Collector.Arguments

open Library.CommandLine Records

def charBuffSize : Nat := 512

structure ProgramOptions extends Options where
  devId : List Char
  host : List Char
  port : BitVec 16
  protocol : List Char
  username : List Char
  password : List Char
  batch : BitVec 32
  log : BitVec 8
  logFile : List Char
  verbose : BitVec 8
  p4cfg : BitVec 8
deriving DecidableEq, Repr

/-- Why there are no options: an error was returned, or the help was printed, or
a text was copied past the end of its buffer. The source does not check the
length, and the language leaves undefined what follows. -/
inductive Stop
  | retErr
  | exited
  | overflow
deriving DecidableEq, Repr

/-- The options so far, and whether errno is ERANGE. It is never reset. -/
structure Parsing where
  opt : ProgramOptions
  erange : Bool

def strcpy (optarg : List Char) : Except Stop (List Char) :=
  if optarg.length < charBuffSize then .ok optarg else .error .overflow

def optstring : List Char := "d:c:p:r:u:s:b:l:m:f:i:vtkh".toList

def setOption (s : Parsing) : Scanned → Except Stop Parsing
  | .unknown => .error .retErr
  | .option op optarg =>
      match op with
      | 'd' => do
          let devId ← strcpy optarg
          pure { s with opt := { s.opt with devId := devId } }
      | 'c' => do
          let host ← strcpy optarg
          pure { s with opt := { s.opt with host := host, hostValid := 1 } }
      | 'p' =>
          let (port, range) := strtoumax optarg
          if s.erange || range then .error .retErr
          else pure { s with opt := { s.opt with port := port.setWidth 16 } }
      | 'r' => do
          let protocol ← strcpy optarg
          pure { s with opt := { s.opt with protocol := protocol } }
      | 'u' => do
          let username ← strcpy optarg
          pure { s with opt := { s.opt with username := username } }
      | 's' => do
          let password ← strcpy optarg
          pure { s with opt := { s.opt with password := password } }
      | 'b' =>
          let (batch, range) := atoi optarg
          pure { s with opt := { s.opt with batch := batch }, erange := s.erange || range }
      | 'l' => do
          let logFile ← strcpy optarg
          pure { s with opt := { s.opt with log := 1, logFile := logFile } }
      | 'm' =>
          let (rate, range) := atoi optarg
          pure { s with opt := { s.opt with smplRate := rate }, erange := s.erange || range }
      | 'i' =>
          let (size, range) := atoi optarg
          pure { s with opt := { s.opt with rawBuffer := size }, erange := s.erange || range }
      | 'v' => pure { s with opt := { s.opt with verbose := 1 } }
      | 't' => pure { s with opt := { s.opt with tstmp := 1 } }
      | 'h' => .error .exited
      -- The option string has two letters more, for which there is no case.
      | _ => pure s

def defaults (opt : ProgramOptions) : ProgramOptions :=
  { opt with
    devId := [], hostValid := 0, batch := 1000, log := 0, verbose := 0, tstmp := 0, p4cfg := 1,
    smplRate := 1, rawBuffer := 1 }

/-- What the options come to that stand in opt uninitialised at first. The
program's name is the first argument. -/
def parseArguments (strict : Bool) (opt : ProgramOptions) (argv : List (List Char)) :
    Except Stop ProgramOptions := do
  let s ← (getopt optstring strict true argv).foldlM setOption ⟨defaults opt, false⟩
  pure s.opt

def cleared : ProgramOptions where
  hostValid := 0
  tstmp := 0
  smplRate := 0
  rawBuffer := 0
  devId := []
  host := []
  port := 0
  protocol := []
  username := []
  password := []
  batch := 0
  log := 0
  logFile := []
  verbose := 0
  p4cfg := 0

theorem strcpy_bind {f : List Char → Parsing} {optarg : List Char} {s : Parsing}
    (h : (strcpy optarg >>= fun text => pure (f text)) = .ok s) : s = f optarg := by
  rw [strcpy] at h
  split at h
  · exact (Except.ok.inj h).symm
  · cases h

theorem setOption_ok (s s' : Parsing) (r : Scanned) (h : setOption s r = .ok s') :
    s'.opt.hostValid = ((argument 'c' r).map fun _ => 1).getD s.opt.hostValid ∧
      s'.opt.smplRate = ((argument 'm' r).map fun text => (atoi text).1).getD s.opt.smplRate ∧
      s'.opt.batch = ((argument 'b' r).map fun text => (atoi text).1).getD s.opt.batch := by
  cases r with
  | unknown => cases h
  | option op optarg =>
      unfold setOption at h
      dsimp only at h
      split at h
      case h_1 | h_2 | h_4 | h_5 | h_6 | h_8 =>
        cases strcpy_bind h
        exact ⟨rfl, rfl, rfl⟩
      case h_3 =>
        split at h
        · cases h
        · cases h
          exact ⟨rfl, rfl, rfl⟩
      case h_7 | h_9 | h_10 | h_11 | h_12 =>
        cases h
        exact ⟨rfl, rfl, rfl⟩
      case h_13 => cases h
      case h_14 hd hc hp hr hu hs hb hl hm hi hv ht hh =>
        cases h
        rw [argument, argument, argument, if_neg hc, if_neg hm, if_neg hb]
        exact ⟨rfl, rfl, rfl⟩

theorem parseArguments_ok (strict : Bool) (opt o : ProgramOptions) (argv : List (List Char))
    (h : parseArguments strict opt argv = .ok o) :
    o.hostValid = ((lastArgument 'c' (getopt optstring strict true argv)).map fun _ => 1).getD 0 ∧
      o.smplRate =
        ((lastArgument 'm' (getopt optstring strict true argv)).map fun text => (atoi text).1).getD 1 ∧
      o.batch =
        ((lastArgument 'b' (getopt optstring strict true argv)).map fun text => (atoi text).1).getD 1000 := by
  rw [parseArguments] at h
  cases hrun : (getopt optstring strict true argv).foldlM setOption ⟨defaults opt, false⟩ with
  | error stop =>
      rw [hrun] at h
      cases h
  | ok s =>
      rw [hrun] at h
      cases h
      refine ⟨?_, ?_, ?_⟩
      · exact foldlM_last setOption (fun s => s.opt.hostValid) (argument 'c') (fun _ => 1)
          (fun s r s' hs => (setOption_ok s s' r hs).1) _ _ s hrun
      · exact foldlM_last setOption (fun s => s.opt.smplRate) (argument 'm') (fun text => (atoi text).1)
          (fun s r s' hs => (setOption_ok s s' r hs).2.1) _ _ s hrun
      · exact foldlM_last setOption (fun s => s.opt.batch) (argument 'b') (fun text => (atoi text).1)
          (fun s r s' hs => (setOption_ok s s' r hs).2.2) _ _ s hrun

theorem hostValid_iff (strict : Bool) (opt o : ProgramOptions) (argv : List (List Char))
    (h : parseArguments strict opt argv = .ok o) :
    o.hostValid ≠ 0 ↔ (lastArgument 'c' (getopt optstring strict true argv)).isSome := by
  rw [(parseArguments_ok strict opt o argv h).1]
  cases lastArgument 'c' (getopt optstring strict true argv) with
  | none => exact iff_of_false (fun hne => hne rfl) (by simp)
  | some host => exact iff_of_true (show (1 : BitVec 8) ≠ 0 by decide) rfl

end IntPlatform.Collector.Arguments
