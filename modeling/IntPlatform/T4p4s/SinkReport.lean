import IntPlatform.T4p4s.SinkEffect
import IntPlatform.T4p4s.SourceLengths

namespace IntPlatform.T4p4s.SinkReport

open Library.Formats Library.HeaderValidity HeaderTypes Parsing Controls Switch Effects T4p4s.Path SinkEffect
open SourceLengths

def etherType (frame : List Byte) : BitVec 16 := be16.decode ((frame.drop 12).take 2)

def metaLen (report : List Byte) : Byte := report.getD 26 0

def hopMetaLen (report : List Byte) : Byte := report.getD 27 0

/-- Only INT traffic becomes a report: any other frame keeps its bytes and is
not passed off as a report, and the two lengths of a report are those of the
INT headers that were parsed. -/
structure SinkRight (s : Segments) (out : List Byte) : Prop where
  plain : s.int = none → (s.frame.drop 14).Sublist (out.drop 14) ∧ etherType out ≠ 0xffff
  report : ∀ shim header, s.int = some (shim, header) →
    hopMetaLen out = header.hopMetadataLen.setWidth 8 ∧ (metaLen out).toNat + 3 = shim.len.toNat

section Report

variable (a : Arrival) (s : Segments)

theorem etherType_reportFrame : etherType (reportFrame a s) = 0xffff := be16.decode_encode _

theorem metaLen_reportFrame :
    metaLen (reportFrame a s) = (read (s.int.map Prod.fst)).len - 3 := rfl

theorem hopMetaLen_reportFrame :
    hopMetaLen (reportFrame a s) = (read (s.int.map Prod.snd)).hopMetadataLen.setWidth 8 := by
  have hz : ∀ v : BitVec 5, (0#3 ++ v : BitVec 8) = v.setWidth 8 := by decide
  exact hz _

end Report

section Sink

variable (hop : Hop) (d : Datagram) (hsrc : hop.cfg.srcEnable = false) (hk : hop.cfg.sinkEnable = true)

include hsrc hk

theorem right_of_carrying (hint : d.int.isSome) :
    ∃ out, hop.forward d.frame = some out ∧ SinkRight d.toSegments out := by
  refine ⟨_, forward_sink hop d.toSegments d.accepted hsrc hk, ?_⟩
  constructor
  case plain =>
      intro hnone
      rw [hnone] at hint
      cases hint
  case report =>
      intro shim header hsome
      have hlen := (d.accepted.supported _ hsome).1
      rw [BitVec.le_def] at hlen
      rw [hopMetaLen_reportFrame, metaLen_reportFrame, hsome]
      refine ⟨rfl, ?_⟩
      change (shim.len - 3#8).toNat + 3 = shim.len.toNat
      bv_omega

theorem carrying_of_right (hr : ∃ out, hop.forward d.frame = some out ∧ SinkRight d.toSegments out) :
    d.int.isSome := by
  obtain ⟨out, hout, hr⟩ := hr
  rw [forward_sink hop d.toSegments d.accepted hsrc hk] at hout
  cases hint : d.int with
  | none =>
      have ht := (hr.plain hint).2
      rw [← Option.some.inj hout] at ht
      exact absurd (etherType_reportFrame hop.arrival d.toSegments) ht
  | some r => rfl

/-- A sink turns every UDP or TCP frame into a report, so it is right exactly
for those that carry INT. -/
theorem sink_right_iff :
    (∃ out, hop.forward d.frame = some out ∧ SinkRight d.toSegments out) ↔ d.int.isSome :=
  ⟨carrying_of_right hop d hsrc hk, right_of_carrying hop d hsrc hk⟩

end Sink

def sampleSink : Hop := ⟨⟨false, true, 3⟩, ⟨false, 0⟩, sampleArrival 140 150⟩

theorem sink_right_sample :
    ∃ out, sampleSink.forward sampleMarked.frame = some out ∧ SinkRight sampleMarked.toSegments out :=
  (sink_right_iff sampleSink sampleMarked rfl rfl).mpr rfl

theorem plain_frame_reported :
    ¬ ∃ out, sampleSink.forward sampleDatagram.frame = some out ∧
      SinkRight sampleDatagram.toSegments out := by
  intro hr
  exact absurd (carrying_of_right sampleSink sampleDatagram rfl rfl hr) (by decide)

end IntPlatform.T4p4s.SinkReport
