import IntPlatform.Collector.Arguments
import IntPlatform.Exporter.HttpTransport
import IntPlatform.Exporter.Transports

namespace IntPlatform.Exporter.HttpRequests

open Library.TextSearch Library.Mealy Library.Batching Library.Numerals
open Collector.Records Collector.Arguments
open AddReport Sender HttpSender Transports HttpTransport

def address (opt : ProgramOptions) : List Char :=
  opt.protocol ++ "://".toList ++ opt.host ++ ":".toList ++ unsigned opt.port

def senderUrl (opt : ProgramOptions) : List Char := address opt ++ "?db=int_telemetry_db".toList

def auth (opt : ProgramOptions) : List Char := opt.username ++ ":".toList ++ opt.password

structure Sending where
  httpSock : Http
  waiting : Waiting

variable (curl : Curl)

/-- One pop in http_sender, with what the send behind it comes to, if it is
called. What it throws is caught, and the text that is printed then is empty. -/
def sendIteration (opt : SenderOptions) (s : Sending) (telemetric : Option TelemetricHdr)
    (t : Transfer) : Sending × Option Request :=
  let (waiting, r) := httpIteration opt s.waiting ⟨telemetric, none⟩
  match r.sent with
  | none => (⟨s.httpSock, waiting⟩, none)
  | some data =>
      let (httpSock, done) := s.httpSock.send curl data t
      (⟨httpSock, waiting⟩, done.request)

def sending (opt : SenderOptions) : Machine Sending (Option TelemetricHdr × Transfer) (Option Request) where
  next s i := (sendIteration curl opt s i.1 i.2).1
  out s i := (sendIteration curl opt s i.1 i.2).2

structure Thread where
  requests : List Request
  loop : Option Sending

/-- The thread of http_sender over some pops. What the constructor throws is not
caught and ends the program. -/
def httpSenderThread (globalInitResult : Nat) (opt : ProgramOptions) (probe : Transfer)
    (pops : List (Option TelemetricHdr × Transfer)) : Thread :=
  let r := http curl globalInitResult (senderUrl opt) probe
  match r.result with
  | .error _ => ⟨r.request.toList, none⟩
  | .ok httpSock =>
      let M := sending curl ⟨opt.hostValid, opt.batch⟩
      let start : Sending := ⟨httpSock.enableBasicAuth (auth opt), Waiting.start⟩
      ⟨r.request.toList ++ (M.outputs start pops).filterMap id, some (M.after start pops)⟩

section Loop

variable (opt : SenderOptions) (url : List Char) (userPwd : Option (List Char))

def popOf (i : Option TelemetricHdr × Transfer) : Pop := ⟨i.1, none⟩

def post (body : List Char) : Request := ⟨url, body, userPwd⟩

structure Posts (s : Sending) (w : Waiting) : Prop where
  url : s.httpSock.writeHandle.url = url
  userPwd : s.httpSock.writeHandle.userPwd = userPwd
  waiting : s.waiting = w

theorem sendIteration_posts {s : Sending} {w : Waiting} (h : Posts url userPwd s w)
    (i : Option TelemetricHdr × Transfer) :
    (sendIteration curl opt s i.1 i.2).2 = (httpIteration opt w (popOf i)).2.sent.map (post url userPwd) ∧
      Posts url userPwd (sendIteration curl opt s i.1 i.2).1 (httpIteration opt w (popOf i)).1 := by
  obtain ⟨rfl, rfl, rfl⟩ := h
  rw [sendIteration, popOf]
  rcases httpIteration opt s.waiting ⟨i.1, none⟩ with ⟨waiting, ⟨sent, cerr⟩⟩
  cases sent with
  | none => exact ⟨rfl, rfl, rfl, rfl⟩
  | some data =>
      refine ⟨?_, rfl, rfl, rfl⟩
      change some (Request.mk s.httpSock.writeHandle.url (data.take data.length)
        s.httpSock.writeHandle.userPwd) = _
      rw [List.take_length]
      rfl

theorem made_cons (o : Option Request) (os : List (Option Request)) :
    (o :: os).filterMap id = o.toList ++ os.filterMap id := by
  cases o <;> rfl

theorem sending_posts {s : Sending} {w : Waiting} (h : Posts url userPwd s w)
    (pops : List (Option TelemetricHdr × Transfer)) :
    ((sending curl opt).outputs s pops).filterMap id =
        (bodies ((httpSender opt).outputs w (pops.map popOf))).map (post url userPwd) ∧
      ((sending curl opt).after s pops).waiting = (httpSender opt).after w (pops.map popOf) := by
  induction pops generalizing s w with
  | nil => exact ⟨rfl, h.waiting⟩
  | cons i pops ih =>
      obtain ⟨hout, hnext⟩ := sendIteration_posts curl opt url userPwd h i
      obtain ⟨houtputs, hafter⟩ := ih hnext
      refine ⟨?_, hafter⟩
      have hcons : ((sending curl opt).outputs s (i :: pops)).filterMap id =
          ((sendIteration curl opt s i.1 i.2).2).toList ++
            ((sending curl opt).outputs (sendIteration curl opt s i.1 i.2).1 pops).filterMap id :=
        made_cons _ _
      rw [hcons, houtputs, hout, List.map_cons, Machine.outputs, bodies_cons, List.map_append]
      congr 1
      change _ = ((httpIteration opt w (popOf i)).2.sent.toList).map (post url userPwd)
      cases (httpIteration opt w (popOf i)).2.sent <;> rfl

end Loop

section Url

variable (opt : ProgramOptions)

def target : List Char := address opt ++ "/write?db=int_telemetry_db".toList

theorem service_append (front : List Char) (n : Nat) :
    service (front ++ Nat.toDigits 10 n) = front ++ Nat.toDigits 10 n := by
  rcases List.eq_nil_or_concat (Nat.toDigits 10 n) with hnil | ⟨digits, c, hdigits⟩
  · exact absurd hnil Nat.toDigits_ne_nil
  · have hslash : '/' ∉ Nat.toDigits 10 n := notMem_toDigits 10 (by decide) (by decide) n '/' rfl
    rw [hdigits, List.concat_eq_append] at hslash ⊢
    rw [← List.append_assoc, service_concat, if_neg]
    rintro rfl
    exact hslash (List.mem_append_right _ List.mem_cons_self)

theorem protocol_plain (h : transportOf opt.protocol = some .http) : '?' ∉ opt.protocol := by
  rw [transportOf] at h
  split at h
  · cases h
  · split at h
    · next hp => rcases hp with hp | hp <;> rw [hp] <;> decide
    · cases h

theorem service_ne (base rest back : List Char) (hbase : base ≠ []) :
    service base ++ "/write?".toList ++ rest ≠ base ++ '?' :: back := by
  rcases List.eq_nil_or_concat base with rfl | ⟨front, c, rfl⟩
  · exact absurd rfl hbase
  · rw [List.concat_eq_append, service_concat]
    split
    · next hc =>
        rw [hc, List.append_assoc, List.append_assoc]
        intro h
        have hcons := List.append_cancel_left h
        simp at hcons
    · rw [List.append_assoc]
      intro h
      have hcons := List.append_cancel_left h
      simp at hcons

/-- The reports go to this URL unless the host has a question mark, which is then
taken for the one of the parameters. -/
theorem senderUrl_parts (h : transportOf opt.protocol = some .http) :
    ∃ base query, senderUrl opt = base ++ '?' :: query ∧ base ≠ [] ∧ '?' ∉ base ∧
      (service base ++ "/write?".toList ++ query = target opt ↔ '?' ∉ opt.host) := by
  have hprotocol := protocol_plain opt h
  by_cases hhost : '?' ∈ opt.host
  · obtain ⟨front, back, hsplit, hfront⟩ := List.eq_append_cons_of_mem hhost
    have haddress : address opt =
        opt.protocol ++ "://".toList ++ front ++ '?' :: (back ++ ":".toList ++ unsigned opt.port) := by
      rw [address, hsplit]
      simp only [List.append_assoc, List.cons_append]
    refine ⟨opt.protocol ++ "://".toList ++ front,
      back ++ ":".toList ++ unsigned opt.port ++ "?db=int_telemetry_db".toList, ?_, by simp, ?_, ?_⟩
    · rw [senderUrl, haddress]
      simp only [List.append_assoc, List.cons_append]
    · simp only [List.mem_append, not_or]
      exact ⟨⟨hprotocol, by decide⟩, hfront⟩
    · refine iff_of_false ?_ (not_not.mpr hhost)
      rw [target, haddress, List.append_assoc _ ('?' :: _), List.cons_append]
      exact service_ne _ _ _ (by simp)
  · refine ⟨address opt, "db=int_telemetry_db".toList, rfl, ?_, ?_, iff_of_true ?_ hhost⟩
    · simp [address]
    · simp only [address, List.mem_append, not_or]
      exact ⟨⟨⟨⟨hprotocol, by decide⟩, hhost⟩, by decide⟩,
        notMem_toDigits 10 (by decide) (by decide) opt.port.toNat '?' rfl⟩
    · rw [target, List.append_assoc, address]
      unfold unsigned
      rw [service_append]
      rfl

end Url

theorem loop_posts (opt : ProgramOptions) (url : List Char) (s : Sending)
    (pops : List (Option TelemetricHdr × Transfer)) (hvalid : opt.hostValid ≠ 0)
    (h : Posts url (some (auth opt)) s Waiting.start) :
    let M := sending curl ⟨opt.hostValid, opt.batch⟩
    ∃ (groups : List (List TelemetricHdr)) (pending : List TelemetricHdr),
      groups.flatten ++ pending = pops.filterMap Prod.fst ∧ (∀ group ∈ groups, group ≠ []) ∧
        (M.outputs s pops).filterMap id =
          groups.map (fun group => ⟨url, group.flatMap report, some (auth opt)⟩) ∧
        (M.after s pops).waiting.buffer.data = pending.flatMap report := by
  obtain ⟨hposts, hafter⟩ := sending_posts curl ⟨opt.hostValid, opt.batch⟩ url (some (auth opt)) h pops
  obtain ⟨b, hitems, hbodies, hbuffer⟩ :=
    httpSender_batches ⟨opt.hostValid, opt.batch⟩ hvalid (pops.map popOf)
  have hrecords : records (pops.map popOf) = pops.filterMap Prod.fst := by
    rw [records, List.filterMap_map]
    rfl
  refine ⟨b.sent, b.pending, hitems.trans hrecords, b.sent_ne_nil, ?_, ?_⟩
  · rw [hposts, hbodies, Batches.bodies, List.map_map]
    rfl
  · rw [hafter, hbuffer.data]
    rfl

/-- The requests of http_sender over any pops, whatever the transfers come to. -/
theorem http_thread (globalInitResult : Nat) (opt : ProgramOptions) (probe : Transfer)
    (pops : List (Option TelemetricHdr × Transfer)) (hprotocol : transportOf opt.protocol = some .http)
    (hvalid : opt.hostValid ≠ 0) :
    let thread := httpSenderThread curl globalInitResult opt probe pops
    (thread.loop.isSome ↔ globalInitResult = curleOk ∧ probe.response = curleOk ∧
      (probe.responseCode.toInt < 400 ∨ probe.responseCode.toInt = 500)) ∧
    ∃ url, (url = target opt ↔ '?' ∉ opt.host) ∧
      (globalInitResult ≠ curleOk → thread.requests = []) ∧
      (globalInitResult = curleOk → thread.requests.head? = some ⟨url, "\n".toList, none⟩) ∧
      (thread.loop = none → thread.requests.tail = []) ∧
      ∀ s, thread.loop = some s → ∃ (groups : List (List TelemetricHdr)) (pending : List TelemetricHdr),
        groups.flatten ++ pending = pops.filterMap Prod.fst ∧ (∀ group ∈ groups, group ≠ []) ∧
          thread.requests.tail =
            groups.map (fun group => ⟨url, group.flatMap report, some (auth opt)⟩) ∧
          s.waiting.buffer.data = pending.flatMap report := by
  obtain ⟨base, query, hurl, hbase, hmark, htarget⟩ := senderUrl_parts opt hprotocol
  dsimp only
  by_cases hinit : globalInitResult = curleOk
  · obtain ⟨hrequest, hok, hmembers⟩ := http_mark curl base query probe hbase hmark
    rw [and_iff_right hinit, ← treatCurlResponse_ok_iff curl, ← hok, hinit, httpSenderThread]
    dsimp only
    rw [hurl]
    cases hresult : (http curl curleOk (base ++ '?' :: query) probe).result with
    | error e =>
        refine ⟨iff_of_false (by simp) (by simp), _, htarget, fun h => absurd rfl h, ?_, ?_, ?_⟩
        · intro _
          rw [hrequest]
          rfl
        · intro _
          rw [hrequest]
          rfl
        · intro s hs
          cases hs
    | ok s =>
        obtain ⟨name, -, hconnected⟩ := hmembers s hresult
        have hposts : Posts (service base ++ "/write?".toList ++ query) (some (auth opt))
            ⟨s.enableBasicAuth (auth opt), Waiting.start⟩ Waiting.start :=
          ⟨hconnected.serves.writeUrl, rfl, rfl⟩
        refine ⟨iff_of_true rfl ⟨s, rfl⟩, _, htarget, fun h => absurd rfl h, ?_, ?_, ?_⟩
        · intro _
          rw [hrequest]
          rfl
        · intro h
          cases h
        · rintro t ht
          cases ht
          rw [hrequest]
          exact loop_posts curl opt _ _ pops hvalid hposts
  · have hthread : httpSenderThread curl globalInitResult opt probe pops = ⟨[], none⟩ := by
      rw [httpSenderThread, http, initCurl, if_pos hinit]
      rfl
    rw [hthread]
    refine ⟨iff_of_false Bool.false_ne_true fun h => hinit h.1, _, htarget, fun _ => rfl,
      fun h => absurd h hinit, fun _ => rfl, ?_⟩
    intro s hs
    cases hs

def localOptions : ProgramOptions where
  hostValid := 1
  tstmp := 0
  smplRate := 1
  rawBuffer := 1
  devId := []
  host := "localhost".toList
  port := 8086
  protocol := "http".toList
  username := "int".toList
  password := "int".toList
  batch := 1
  log := 0
  logFile := []
  verbose := 0
  p4cfg := 1

def localThread : Thread :=
  httpSenderThread ⟨fun _ => [], id⟩ curleOk localOptions ⟨curleOk, 204, []⟩ [(some oneHop, ⟨7, 0, []⟩)]

theorem http_thread_local :
    localThread.loop.isSome ∧ localThread.requests =
      [⟨"http://localhost:8086/write?db=int_telemetry_db".toList, "\n".toList, none⟩,
        ⟨"http://localhost:8086/write?db=int_telemetry_db".toList, report oneHop,
          some "int:int".toList⟩] := by
  obtain ⟨hstarted, url, htarget, -, hfirst, -, hposts⟩ :=
    http_thread ⟨fun _ => [], id⟩ curleOk localOptions ⟨curleOk, 204, []⟩ [(some oneHop, ⟨7, 0, []⟩)] rfl
      (by decide)
  have hsome : localThread.loop.isSome := hstarted.mpr ⟨rfl, rfl, Or.inl (by decide)⟩
  refine ⟨hsome, ?_⟩
  obtain ⟨s, hs⟩ := Option.isSome_iff_exists.mp hsome
  obtain ⟨groups, pending, hitems, hne, htail, hdata⟩ := hposts s hs
  have hurl : url = "http://localhost:8086/write?db=int_telemetry_db".toList := htarget.mpr (by decide)
  have hempty : s.waiting.buffer.data = [] := by
    have hbuffer : localThread.loop.map (fun s => s.waiting.buffer.data) = some [] := rfl
    rw [hs] at hbuffer
    exact Option.some.inj hbuffer
  rw [hempty] at hdata
  have hpending : pending = [] := by
    cases pending with
    | nil => rfl
    | cons r rest =>
        rw [List.flatMap_cons] at hdata
        exact absurd (List.append_eq_nil_iff.mp hdata.symm).1 (report_ne_nil r)
  rw [hpending, List.append_nil] at hitems
  obtain ⟨front, back, hgroups, hfront, hback⟩ := List.flatten_eq_singleton_iff.mp hitems
  have hone : groups = [[oneHop]] := by
    have hf : front = [] := List.eq_nil_iff_forall_not_mem.mpr fun group hg =>
      hne group (hgroups ▸ List.mem_append_left _ hg) (hfront group hg)
    have hb : back = [] := List.eq_nil_iff_forall_not_mem.mpr fun group hg =>
      hne group (hgroups ▸ List.mem_append_right _ (List.mem_cons_of_mem _ hg)) (hback group hg)
    rw [hgroups, hf, hb, List.nil_append]
  calc localThread.requests
      = ⟨url, "\n".toList, none⟩ :: localThread.requests.tail :=
        List.eq_cons_of_mem_head? (hfirst rfl)
    _ = ⟨url, "\n".toList, none⟩ ::
          groups.map (fun group => ⟨url, group.flatMap report, some (auth localOptions)⟩) :=
        congrArg _ htail
    _ = _ := by
        rw [hone, hurl, List.map_singleton, List.flatMap_singleton]
        rfl

end IntPlatform.Exporter.HttpRequests
