import IntPlatform.Library.Refusals
import IntPlatform.Collector.Arguments
import IntPlatform.Exporter.Transports

namespace IntPlatform.Program.StartUp

open Library.CommandLine Library.Mealy Library.Refusals Collector.Records Collector.Arguments
open Exporter.Transports

def ranged : Scanned → Bool
  | .option c optarg => (c = 'b' ∨ c = 'm' ∨ c = 'i') && (atoi optarg).2
  | .unknown => false

/-- Why an option ends parse_arguments, behind the options before it. -/
def refusal (pre : List Scanned) : Scanned → Option Stop
  | .unknown => some .retErr
  | .option op optarg =>
      if op = 'h' then some .exited
      else if op = 'p' then
        if (strtoumax optarg).2 ∨ pre.any ranged then some .retErr else none
      else if op ∈ "dcrusl".toList ∧ charBuffSize ≤ optarg.length then some .overflow
      else none

/-- The options that stand in opt after some results of getopt. -/
def given (opt : ProgramOptions) (scanned : List Scanned) : ProgramOptions where
  devId := (lastArgument 'd' scanned).getD []
  host := (lastArgument 'c' scanned).getD opt.host
  hostValid := ((lastArgument 'c' scanned).map fun _ => 1).getD 0
  port := ((lastArgument 'p' scanned).map fun text => (strtoumax text).1.setWidth 16).getD opt.port
  protocol := (lastArgument 'r' scanned).getD opt.protocol
  username := (lastArgument 'u' scanned).getD opt.username
  password := (lastArgument 's' scanned).getD opt.password
  batch := ((lastArgument 'b' scanned).map fun text => (atoi text).1).getD 1000
  log := ((lastArgument 'l' scanned).map fun _ => 1).getD 0
  logFile := (lastArgument 'l' scanned).getD opt.logFile
  verbose := ((lastArgument 'v' scanned).map fun _ => 1).getD 0
  tstmp := ((lastArgument 't' scanned).map fun _ => 1).getD 0
  p4cfg := 1
  smplRate := ((lastArgument 'm' scanned).map fun text => (atoi text).1).getD 1
  rawBuffer := ((lastArgument 'i' scanned).map fun text => (atoi text).1).getD 1

def Fitting (scanned : List Scanned) : Prop :=
  ∀ c ∈ "dcrusl".toList, ∀ text, Scanned.option c text ∈ scanned → text.length < charBuffSize

def parsing (opt : ProgramOptions) (scanned : List Scanned) : Parsing :=
  ⟨given opt scanned, scanned.any ranged⟩

theorem lastArgument_concat (c : Char) (scanned : List Scanned) (r : Scanned) :
    lastArgument c (scanned ++ [r]) = (argument c r).or (lastArgument c scanned) := by
  rw [lastArgument, List.filterMap_append]
  cases h : argument c r with
  | none => rw [List.filterMap_cons_none h, List.filterMap_nil, List.append_nil, Option.none_or, lastArgument]
  | some text => rw [List.filterMap_cons_some h, List.filterMap_nil, List.getLast?_concat, Option.some_or]

section Option

variable (op : Char) (optarg : List Char)

theorem strcpy_ok (f : List Char → Parsing) (h : ¬charBuffSize ≤ optarg.length) :
    (strcpy optarg >>= fun text => pure (f text)) = .ok (f optarg) := by
  rw [strcpy, if_pos (Nat.not_le.mp h)]
  rfl

theorem strcpy_overflow (f : List Char → Parsing) (h : charBuffSize ≤ optarg.length) :
    (strcpy optarg >>= fun text => pure (f text)) = .error .overflow := by
  rw [strcpy, if_neg (Nat.not_lt.mpr h)]
  rfl

end Option

theorem lastArgument_other (c op : Char) (optarg : List Char) (scanned : List Scanned) (h : op ≠ c) :
    lastArgument c (scanned ++ [.option op optarg]) = lastArgument c scanned := by
  rw [lastArgument_concat, argument, if_neg h, Option.none_or]

theorem parsing_other (opt : ProgramOptions) (pre : List Scanned) (op : Char) (optarg : List Char)
    (h : ∀ c ∈ "dcprusblmivt".toList, op ≠ c) :
    parsing opt (pre ++ [.option op optarg]) = parsing opt pre := by
  have hlast (c : Char) (hc : c ∈ "dcprusblmivt".toList) :
      lastArgument c (pre ++ [.option op optarg]) = lastArgument c pre :=
    lastArgument_other c op optarg pre (h c hc)
  have hranged : ranged (.option op optarg) = false := by
    simp [ranged, h 'b' (by decide), h 'm' (by decide), h 'i' (by decide)]
  rw [parsing, parsing, List.any_append, List.any_cons, hranged, List.any_nil, Bool.or_false, Bool.or_false]
  simp only [given, hlast 'd' (by decide), hlast 'c' (by decide), hlast 'p' (by decide),
    hlast 'r' (by decide), hlast 'u' (by decide), hlast 's' (by decide), hlast 'b' (by decide),
    hlast 'l' (by decide), hlast 'm' (by decide), hlast 'i' (by decide), hlast 'v' (by decide),
    hlast 't' (by decide)]

theorem setOption_accepted (opt : ProgramOptions) (pre : List Scanned) (r : Scanned)
    (h : refusal pre r = none) : setOption (parsing opt pre) r = .ok (parsing opt (pre ++ [r])) := by
  cases r with
  | unknown => cases h
  | option op optarg =>
      rw [refusal] at h
      unfold setOption
      dsimp only
      split
      case h_1 | h_2 | h_4 | h_5 | h_6 | h_8 =>
        have hlen : ¬charBuffSize ≤ optarg.length := by
          intro hlen
          simp [hlen] at h
        rw [strcpy_ok optarg _ hlen]
        simp [parsing, given, lastArgument_concat, argument, ranged]
      case h_3 =>
        rw [if_neg (by decide), if_pos rfl] at h
        split at h
        · cases h
        · next hr =>
            rw [not_or] at hr
            simp [parsing, given, lastArgument_concat, argument, ranged, hr.1, hr.2]
            rfl
      case h_7 | h_9 | h_10 | h_11 | h_12 =>
        simp [parsing, given, lastArgument_concat, argument, ranged]
        rfl
      case h_13 => cases h
      case h_14 hd hc hp hr hu hs hb hl hm hi hv ht hh =>
        rw [parsing_other]
        · rfl
        · have hletters : "dcprusblmivt".toList =
              ['d', 'c', 'p', 'r', 'u', 's', 'b', 'l', 'm', 'i', 'v', 't'] := rfl
          rw [hletters]
          simp only [List.forall_mem_cons]
          exact ⟨hd, hc, hp, hr, hu, hs, hb, hl, hm, hi, hv, ht, by simp⟩

theorem setOption_refused (opt : ProgramOptions) (pre : List Scanned) (r : Scanned) (stop : Stop)
    (h : refusal pre r = some stop) : setOption (parsing opt pre) r = .error stop := by
  cases r with
  | unknown =>
      cases h
      rfl
  | option op optarg =>
      rw [refusal] at h
      split at h
      · next hh =>
          cases h
          rw [hh]
          rfl
      · split at h
        · next hp =>
            split at h
            · next hr =>
                cases h
                rw [hp]
                apply if_pos
                rw [Bool.or_eq_true]
                exact hr.symm
            · cases h
        · split at h
          · next hc =>
              cases h
              obtain ⟨hop, hlen⟩ := hc
              have hletters : "dcrusl".toList = ['d', 'c', 'r', 'u', 's', 'l'] := rfl
              rw [hletters] at hop
              simp only [List.mem_cons, List.not_mem_nil, or_false] at hop
              rcases hop with rfl | rfl | rfl | rfl | rfl | rfl <;> exact strcpy_overflow optarg _ hlen
          · cases h

theorem setOption_decides (opt : ProgramOptions) : Decides setOption (parsing opt) refusal where
  accepted := setOption_accepted opt
  refused := setOption_refused opt

section Parse

variable (strict : Bool) (opt : ProgramOptions) (argv : List (List Char))

theorem parseArguments_ok_iff (o : ProgramOptions) :
    parseArguments strict opt argv = .ok o ↔
      AtEach (fun pre r => refusal pre r = none) (getopt optstring strict true argv) ∧
        o = given opt (getopt optstring strict true argv) := by
  have hrun := (setOption_decides opt).run_ok_iff (getopt optstring strict true argv)
  have hstart : parsing opt [] = ⟨defaults opt, false⟩ := rfl
  rw [hstart] at hrun
  rw [parseArguments]
  constructor
  · intro h
    cases hs : (getopt optstring strict true argv).foldlM setOption ⟨defaults opt, false⟩ with
    | error stop =>
        rw [hs] at h
        cases h
    | ok s =>
        rw [hs] at h
        cases h
        obtain ⟨hall, rfl⟩ := (hrun s).mp hs
        exact ⟨hall, rfl⟩
  · rintro ⟨hall, rfl⟩
    rw [(hrun _).mpr ⟨hall, rfl⟩]
    rfl

theorem parseArguments_error_iff (stop : Stop) :
    parseArguments strict opt argv = .error stop ↔
      FirstRefused refusal stop (getopt optstring strict true argv) := by
  have hrun := (setOption_decides opt).run_error_iff (getopt optstring strict true argv) stop
  have hstart : parsing opt [] = ⟨defaults opt, false⟩ := rfl
  rw [hstart] at hrun
  rw [parseArguments, ← hrun]
  cases (getopt optstring strict true argv).foldlM setOption ⟨defaults opt, false⟩ with
  | error stop' =>
      constructor
      · intro h
        cases h
        rfl
      · intro h
        cases h
        rfl
  | ok s =>
      constructor
      · intro h
        cases h
      · intro h
        cases h

end Parse

/-- Why main ends before its loop. What the exporter throws is not caught. -/
inductive Failure
  | stopped (stop : Stop)
  | socket
  | signal
  | unknownProtocol
deriving DecidableEq, Repr

/-- What the system answers: the socket can be opened and bound, and the handler
of SIGINT registered. -/
structure System where
  socket : Bool
  signal : Bool

def intExporter (opt : ProgramOptions) : Except Failure (List Transport) :=
  (List.range opt.rawBuffer.toNat).mapM fun _ =>
    match transportOf opt.protocol with
    | none => .error .unknownProtocol
    | some transport => .ok transport

def prepareSocket (sys : System) : Except Failure Unit := if sys.socket then .ok () else .error .socket

def registerHandler (sys : System) : Except Failure Unit := if sys.signal then .ok () else .error .signal

def prepared (sys : System) (o : ProgramOptions) : Except Failure (ProgramOptions × List Transport) := do
  prepareSocket sys
  registerHandler sys
  let senders ← intExporter o
  pure (o, senders)

def startUp (sys : System) (strict : Bool) (opt : ProgramOptions) (argv : List (List Char)) :
    Except Failure (ProgramOptions × List Transport) := do
  let o ← (parseArguments strict opt argv).mapError .stopped
  prepared sys o

theorem mapM_ok {α β ε : Type} (b : β) (l : List α) :
    l.mapM (fun _ => (.ok b : Except ε β)) = .ok (List.replicate l.length b) := by
  induction l with
  | nil => rfl
  | cons a l ih =>
      rw [List.mapM_cons, ih]
      rfl

/-- Without rings nothing asks for the protocol. -/
theorem intExporter_eq (opt : ProgramOptions) :
    intExporter opt =
      match transportOf opt.protocol with
      | some transport => .ok (List.replicate opt.rawBuffer.toNat transport)
      | none => if opt.rawBuffer = 0 then .ok [] else .error .unknownProtocol := by
  rw [intExporter]
  cases transportOf opt.protocol with
  | some transport =>
      dsimp only
      rw [mapM_ok, List.length_range]
  | none =>
      dsimp only
      by_cases hzero : opt.rawBuffer = 0
      · rw [if_pos hzero, hzero]
        rfl
      · have hne : opt.rawBuffer.toNat ≠ 0 := fun h => hzero (BitVec.eq_of_toNat_eq h)
        obtain ⟨n, hn⟩ := Nat.exists_eq_succ_of_ne_zero hne
        rw [if_neg hzero, hn, List.range_succ_eq_map, List.mapM_cons]
        rfl

theorem intExporter_ok_iff (opt : ProgramOptions) (senders : List Transport) :
    intExporter opt = .ok senders ↔
      senders.length = opt.rawBuffer.toNat ∧ ∀ t ∈ senders, transportOf opt.protocol = some t := by
  rw [intExporter_eq]
  cases transportOf opt.protocol with
  | some transport =>
      simp only [Except.ok.injEq, Option.some.injEq]
      constructor
      · rintro rfl
        exact ⟨List.length_replicate, fun t ht => (List.eq_of_mem_replicate ht).symm⟩
      · rintro ⟨hlen, hall⟩
        exact (List.eq_replicate_iff.mpr ⟨hlen, fun t ht => (hall t ht).symm⟩).symm
  | none =>
      by_cases hzero : opt.rawBuffer = 0
      · simp only [if_pos hzero, Except.ok.injEq]
        constructor
        · rintro rfl
          exact ⟨by rw [hzero]; rfl, fun t ht => absurd ht List.not_mem_nil⟩
        · rintro ⟨hlen, -⟩
          rw [hzero] at hlen
          exact (List.eq_nil_of_length_eq_zero hlen).symm
      · simp only [if_neg hzero]
        refine iff_of_false (by simp) ?_
        rintro ⟨hlen, hall⟩
        cases senders with
        | nil => exact hzero (BitVec.eq_of_toNat_eq hlen.symm)
        | cons t senders => exact absurd (hall t List.mem_cons_self) (by simp)

def Known (opt : ProgramOptions) : Prop := opt.rawBuffer = 0 ∨ transportOf opt.protocol ≠ none

instance (opt : ProgramOptions) : Decidable (Known opt) := inferInstanceAs (Decidable (_ ∨ _))

theorem intExporter_known (opt : ProgramOptions) (h : Known opt) : ∃ senders, intExporter opt = .ok senders := by
  rw [intExporter_eq]
  cases htransport : transportOf opt.protocol with
  | some transport => exact ⟨_, rfl⟩
  | none => exact ⟨[], if_pos (h.resolve_right (not_not.mpr htransport))⟩

theorem intExporter_unknown (opt : ProgramOptions) (h : ¬Known opt) :
    intExporter opt = .error .unknownProtocol := by
  obtain ⟨hzero, htransport⟩ := not_or.mp h
  rw [intExporter_eq, not_not.mp htransport]
  exact if_neg hzero

/-- With texts that fit, getopt's results never lead to an overflow. -/
theorem refusal_fitting {scanned pre post : List Scanned} {r : Scanned} (hfit : Fitting scanned)
    (hsplit : scanned = pre ++ r :: post) : refusal pre r ≠ some .overflow := by
  cases r with
  | unknown => simp [refusal]
  | option op optarg =>
      have hlen (hop : op ∈ "dcrusl".toList) : ¬charBuffSize ≤ optarg.length := by
        have hmem : Scanned.option op optarg ∈ scanned := by
          rw [hsplit]
          exact List.mem_append_right _ List.mem_cons_self
        exact Nat.not_le.mpr (hfit op hop optarg hmem)
      rw [refusal]
      split
      · simp
      · split
        · split
          · simp
          · simp
        · rw [if_neg fun h => hlen h.1 h.2]
          simp

section Prepared

variable (sys : System) (o : ProgramOptions)

theorem prepared_socket (h : sys.socket = false) : prepared sys o = .error .socket := by
  rw [prepared, prepareSocket, h]
  rfl

theorem prepared_signal (hsocket : sys.socket = true) (h : sys.signal = false) :
    prepared sys o = .error .signal := by
  rw [prepared, prepareSocket, hsocket, registerHandler, h]
  rfl

theorem prepared_exporter (hsocket : sys.socket = true) (hsignal : sys.signal = true) :
    prepared sys o = intExporter o >>= fun senders => pure (o, senders) := by
  rw [prepared, prepareSocket, hsocket, registerHandler, hsignal]
  rfl

theorem prepared_cases :
    (sys.socket = false ∧ prepared sys o = .error .socket) ∨
    (sys.socket = true ∧ sys.signal = false ∧ prepared sys o = .error .signal) ∨
    (sys.socket = true ∧ sys.signal = true ∧ ¬Known o ∧ prepared sys o = .error .unknownProtocol) ∨
    (sys.socket = true ∧ sys.signal = true ∧ Known o ∧
      ∃ senders, intExporter o = .ok senders ∧ prepared sys o = .ok (o, senders)) := by
  cases hsocket : sys.socket with
  | false => exact .inl ⟨rfl, prepared_socket sys o hsocket⟩
  | true =>
      cases hsignal : sys.signal with
      | false => exact .inr (.inl ⟨rfl, rfl, prepared_signal sys o hsocket hsignal⟩)
      | true =>
          rw [prepared_exporter sys o hsocket hsignal]
          by_cases hknown : Known o
          · obtain ⟨senders, h⟩ := intExporter_known o hknown
            exact .inr (.inr (.inr ⟨rfl, rfl, hknown, senders, h, by rw [h]; rfl⟩))
          · rw [intExporter_unknown o hknown]
            exact .inr (.inr (.inl ⟨rfl, rfl, hknown, rfl⟩))

theorem prepared_not_stopped (stop : Stop) : prepared sys o ≠ .error (.stopped stop) := by
  rcases prepared_cases sys o with h | h | h | ⟨-, -, -, senders, -, h⟩
  all_goals simp [h]

theorem prepared_socket_iff : prepared sys o = .error .socket ↔ sys.socket = false := by
  rcases prepared_cases sys o with h | h | h | ⟨hsocket, -, -, senders, -, h⟩
  case inr.inr.inr => simp [h, hsocket]
  all_goals simp [h]

theorem prepared_signal_iff : prepared sys o = .error .signal ↔ sys.socket = true ∧ sys.signal = false := by
  rcases prepared_cases sys o with h | h | h | ⟨-, hsignal, -, senders, -, h⟩
  case inr.inr.inr => simp [h, hsignal]
  all_goals simp [h]

theorem prepared_unknown_iff :
    prepared sys o = .error .unknownProtocol ↔ sys.socket = true ∧ sys.signal = true ∧ ¬Known o := by
  rcases prepared_cases sys o with h | h | h | ⟨-, -, hknown, senders, -, h⟩
  case inr.inr.inr => simp [h, hknown]
  all_goals simp [h]

theorem prepared_ok_iff (o' : ProgramOptions) (senders : List Transport) :
    prepared sys o = .ok (o', senders) ↔
      sys.socket = true ∧ sys.signal = true ∧ o' = o ∧ intExporter o = .ok senders := by
  rcases prepared_cases sys o with h | h | h | ⟨hsocket, hsignal, -, senders', hexporter, h⟩
  case inr.inr.inr => simp [h, hsocket, hsignal, hexporter, eq_comm]
  case inr.inr.inl => simp [h, intExporter_unknown o h.2.2.1]
  all_goals simp [h]

end Prepared

section StartUp

variable (sys : System) (strict : Bool) (opt : ProgramOptions) (argv : List (List Char))

theorem startUp_refused (stop : Stop) (h : parseArguments strict opt argv = .error stop) :
    startUp sys strict opt argv = .error (.stopped stop) := by
  rw [startUp, h]
  rfl

theorem startUp_parsed (o : ProgramOptions) (h : parseArguments strict opt argv = .ok o) :
    startUp sys strict opt argv = prepared sys o := by
  rw [startUp, h]
  rfl

theorem startUp_iff (r : Except Failure (ProgramOptions × List Transport))
    (hr : ∀ stop, r ≠ .error (.stopped stop)) :
    startUp sys strict opt argv = r ↔
      AtEach (fun pre r => refusal pre r = none) (getopt optstring strict true argv) ∧
        prepared sys (given opt (getopt optstring strict true argv)) = r := by
  have hok := parseArguments_ok_iff strict opt argv
  cases hparse : parseArguments strict opt argv with
  | error stop =>
      rw [startUp_refused sys strict opt argv stop hparse]
      refine iff_of_false (fun h => hr stop h.symm) ?_
      rintro ⟨hall, -⟩
      have h := (hok _).mpr ⟨hall, rfl⟩
      rw [hparse] at h
      cases h
  | ok o =>
      obtain ⟨hall, rfl⟩ := (hok o).mp hparse
      rw [startUp_parsed sys strict opt argv _ hparse, and_iff_right hall]

theorem startUp_stopped_iff (stop : Stop) :
    startUp sys strict opt argv = .error (.stopped stop) ↔
      FirstRefused refusal stop (getopt optstring strict true argv) := by
  rw [← parseArguments_error_iff strict opt argv]
  cases hparse : parseArguments strict opt argv with
  | error stop' =>
      rw [startUp_refused sys strict opt argv stop' hparse]
      simp
  | ok o =>
      rw [startUp_parsed sys strict opt argv o hparse]
      exact iff_of_false (prepared_not_stopped sys o stop) (by simp)

end StartUp

/-- main comes to its loop exactly when no argument ends it, the system gives it
the socket and the handler, and the exporter knows the protocol; otherwise it
ends for the first of these that is missing. -/
theorem start_up (sys : System) (strict : Bool) (opt : ProgramOptions) (argv : List (List Char))
    (hfit : Fitting (getopt optstring strict true argv)) :
    let scanned := getopt optstring strict true argv
    let o := given opt scanned
    let accepted := AtEach (fun pre r => refusal pre r = none) scanned
    ((∀ stop, startUp sys strict opt argv = .error (.stopped stop) ↔ FirstRefused refusal stop scanned) ∧
      startUp sys strict opt argv ≠ .error (.stopped .overflow)) ∧
    (startUp sys strict opt argv = .error .socket ↔ accepted ∧ sys.socket = false) ∧
    (startUp sys strict opt argv = .error .signal ↔ accepted ∧ sys.socket = true ∧ sys.signal = false) ∧
    (startUp sys strict opt argv = .error .unknownProtocol ↔
      accepted ∧ sys.socket = true ∧ sys.signal = true ∧ ¬Known o) ∧
    ∀ o' senders, startUp sys strict opt argv = .ok (o', senders) ↔
      accepted ∧ sys.socket = true ∧ sys.signal = true ∧ o' = o ∧
        senders.length = o.rawBuffer.toNat ∧ ∀ t ∈ senders, transportOf o.protocol = some t := by
  intro scanned o accepted
  have hstopped := startUp_stopped_iff sys strict opt argv
  have hbehind := startUp_iff sys strict opt argv
  refine ⟨⟨hstopped, ?_⟩, ?_, ?_, ?_, ?_⟩
  · rw [Ne, hstopped]
    rintro ⟨pre, r, post, hsplit, -, hr⟩
    exact refusal_fitting hfit hsplit hr
  · rw [hbehind _ (by simp), prepared_socket_iff]
  · rw [hbehind _ (by simp), prepared_signal_iff]
  · rw [hbehind _ (by simp), prepared_unknown_iff]
  · intro o' senders
    rw [hbehind _ (by simp), prepared_ok_iff, intExporter_ok_iff]

theorem start_up_sample :
    startUp ⟨false, true⟩ false cleared ["p4int".toList, "-r".toList, "udp".toList] = .error .socket := by
  have hscan : getopt optstring false true ["p4int".toList, "-r".toList, "udp".toList] =
      [.option 'r' "udp".toList] := by decide
  have h := start_up ⟨false, true⟩ false cleared ["p4int".toList, "-r".toList, "udp".toList]
  rw [hscan] at h
  refine (h ?_).2.1.mpr ⟨?_, rfl⟩
  · intro c _ text hmem
    cases List.mem_singleton.mp hmem
    decide
  · exact (atEach_concat _ [] _).mpr ⟨atEach_nil _, by decide⟩

end IntPlatform.Program.StartUp
