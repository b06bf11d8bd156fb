import IntPlatform.Collector.Iterations
import IntPlatform.Collector.NodeReads
import IntPlatform.Program.StartUp

namespace IntPlatform.Program.Divisions

open Library.Formats Library.CommandLine
open Collector.Records Collector.ProcessPacket Collector.Outcome Collector.Buffers Collector.Runs
open Collector.Iterations Collector.Arguments Collector.NodeReads Exporter.Transports StartUp

def mainFault (sys : System) (strict : Bool) (uninit : ProgramOptions) (argv : List (List Char)) (m : Memory)
    (buffer : List Byte) (events : List Event) : Option Fault :=
  match startUp sys strict uninit argv with
  | .error _ => none
  | .ok (o, _) => (passes o.toOptions m buffer events).2

/-- The arguments name a host and their last sampling rate is zero. -/
def ZeroRateGiven (scanned : List Scanned) : Prop :=
  (lastArgument 'c' scanned).isSome ∧ ∃ text ∈ lastArgument 'm' scanned, (atoi text).1 = 0

theorem zeroRate_iff (uninit : ProgramOptions) (scanned : List Scanned) :
    ZeroRate (given uninit scanned).toOptions ↔ ZeroRateGiven scanned := by
  rw [ZeroRate, ZeroRateGiven, given]
  apply and_congr
  · cases lastArgument 'c' scanned with
    | none => exact iff_of_false (fun hne => hne rfl) (by simp)
    | some host => exact iff_of_true (show (1 : BitVec 8) ≠ 0 by decide) rfl
  · cases lastArgument 'm' scanned with
    | none => exact iff_of_false (show (1 : BitVec 32) ≠ 0 by decide) (by simp)
    | some text => simp

def Started (sys : System) (o : ProgramOptions) : Prop :=
  sys.socket = true ∧ sys.signal = true ∧ Known o

section Start

variable (sys : System) (strict : Bool) (uninit o : ProgramOptions) (argv : List (List Char)) (m : Memory)
  (buffer : List Byte) (events : List Event) (hok : parseArguments strict uninit argv = .ok o)

include hok

theorem mainFault_started (h : Started sys o) :
    mainFault sys strict uninit argv m buffer events = (passes o.toOptions m buffer events).2 := by
  obtain ⟨hsocket, hsignal, hknown⟩ := h
  obtain ⟨senders, hexporter⟩ := intExporter_known o hknown
  have hprepared := (prepared_ok_iff sys o o senders).mpr ⟨hsocket, hsignal, rfl, hexporter⟩
  rw [mainFault, startUp_parsed sys strict uninit argv o hok, hprepared]

theorem mainFault_not_started (h : ¬ Started sys o) :
    mainFault sys strict uninit argv m buffer events = none := by
  rw [mainFault, startUp_parsed sys strict uninit argv o hok]
  cases hprepared : prepared sys o with
  | error failure => rfl
  | ok r =>
      obtain ⟨hsocket, hsignal, -, hexporter⟩ := (prepared_ok_iff sys o r.1 r.2).mp hprepared
      refine absurd ⟨hsocket, hsignal, ?_⟩ h
      by_contra hknown
      rw [intExporter_unknown o hknown] at hexporter
      cases hexporter

end Start

/-- main divides by zero in no pass of its loop exactly when it does not come to
the loop, or no packet there has the word count 0 for its hops and the arguments
allow the modulus. -/
theorem divisions_iff (sys : System) (strict : Bool) (uninit o : ProgramOptions) (argv : List (List Char))
    (hok : parseArguments strict uninit argv = .ok o) (m : Memory) (buffer : List Byte)
    (h : buffer.length = pktBufSize) (events : List Event) :
    mainFault sys strict uninit argv m buffer events ≠ some .divisionByZero ↔
      (Started sys (given uninit (getopt optstring strict true argv)) →
        ∀ b ∈ buffersOf buffer (events.map Event.frame),
          (influxOf b).hopMetaLen ≠ 0 ∧ ¬ ZeroRateGiven (getopt optstring strict true argv)) := by
  obtain ⟨-, rfl⟩ := (parseArguments_ok_iff strict uninit argv o).mp hok
  by_cases hstarted : Started sys (given uninit (getopt optstring strict true argv))
  · rw [mainFault_started sys strict uninit _ argv m buffer events hok hstarted,
      passes_divide_iff _ m buffer events h, zeroRate_iff, forall_prop_of_true hstarted]
  · rw [mainFault_not_started sys strict uninit _ argv m buffer events hok hstarted]
    exact iff_of_true (fun hne => nomatch hne) fun hst => absurd hst hstarted

def sampleArgs (rate : List Char) : List (List Char) :=
  ["p4int".toList, "-r".toList, "udp".toList, "-c".toList, "10.0.0.9".toList, "-p".toList, "8089".toList,
    "-m".toList, rate]

def sampleOptions (rate : BitVec 32) : ProgramOptions :=
  { defaults cleared with
    host := "10.0.0.9".toList, hostValid := 1, port := 8089, protocol := "udp".toList, smplRate := rate }

theorem sampleArgs_started (rate : BitVec 32) : Started ⟨true, true⟩ (sampleOptions rate) :=
  ⟨rfl, rfl, .inr (show transportOf "udp".toList ≠ none by decide)⟩

theorem buffersOf_lengthsFrame (metaLen hopMetaLen : Byte) :
    buffersOf (List.replicate pktBufSize 0) ([Event.mk (some (lengthsFrame metaLen hopMetaLen)) 0].map Event.frame) =
      [recvfrom (lengthsFrame metaLen hopMetaLen) (List.replicate pktBufSize 0)] := rfl

theorem divisions_sample :
    mainFault ⟨true, true⟩ false cleared (sampleArgs ['1']) Memory.initial (List.replicate pktBufSize 0)
      [⟨some (lengthsFrame 6 6), 0⟩] ≠ some .divisionByZero := by
  refine (divisions_iff ⟨true, true⟩ false cleared (sampleOptions 1) (sampleArgs ['1']) (by decide)
    Memory.initial _ List.length_replicate _).mpr ?_
  intro _ b hb
  rw [buffersOf_lengthsFrame, List.mem_singleton] at hb
  obtain ⟨-, hhop⟩ := influxOf_lengthsFrame 6 6 (List.replicate pktBufSize 0)
  rw [hb, hhop, ← zeroRate_iff cleared]
  decide

/-- A rate of zero faults at the first report, and with any options a report
without a word count does. -/
theorem divided_by_zero :
    (parseArguments false cleared (sampleArgs ['0']) = .ok (sampleOptions 0) ∧
      mainFault ⟨true, true⟩ false cleared (sampleArgs ['0']) Memory.initial (List.replicate pktBufSize 0)
        [⟨some (lengthsFrame 6 6), 0⟩] = some .divisionByZero) ∧
    (parseArguments false cleared (sampleArgs ['1']) = .ok (sampleOptions 1) ∧
      mainFault ⟨true, true⟩ false cleared (sampleArgs ['1']) Memory.initial (List.replicate pktBufSize 0)
        [⟨some (lengthsFrame 6 0), 0⟩] = some .divisionByZero) := by
  have hzero : parseArguments false cleared (sampleArgs ['0']) = .ok (sampleOptions 0) := by decide
  have hone : parseArguments false cleared (sampleArgs ['1']) = .ok (sampleOptions 1) := by decide
  refine ⟨⟨hzero, ?_⟩, ⟨hone, ?_⟩⟩
  · have hrate : ZeroRate (sampleOptions 0).toOptions := by decide
    rw [mainFault_started _ _ _ _ _ _ _ _ hzero (sampleArgs_started 0), passes,
      iteration_fault _ _ _ ⟨some (lengthsFrame 6 6), 0⟩ List.length_replicate fun h => h.2 hrate]
  · obtain ⟨-, hhop⟩ := influxOf_lengthsFrame 6 0 (List.replicate pktBufSize 0)
    rw [mainFault_started _ _ _ _ _ _ _ _ hone (sampleArgs_started 1), passes,
      iteration_fault _ _ _ ⟨some (lengthsFrame 6 0), 0⟩ List.length_replicate fun h => h.1 hhop]

end IntPlatform.Program.Divisions
