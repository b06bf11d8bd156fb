import IntPlatform.Library.Mealy
import IntPlatform.Library.TextSearch
import IntPlatform.Exporter.AddReport

namespace IntPlatform.Exporter.HttpTransport

open Library.TextSearch Library.Mealy AddReport

/-- The return codes of curl are numbers, with CURLE_OK first. -/
def curleOk : Nat := 0

/-- What curl_easy_perform comes to: its return code, and the status and the
contents of the response. -/
structure Transfer where
  response : Nat
  responseCode : BitVec 64
  contents : List Char

inductive Thrown
  | runtimeError (what : List Char)
  | outOfRange
deriving DecidableEq, Repr

structure Handle where
  url : List Char
  postFields : List Char
  postFieldSize : Option Nat
  userPwd : Option (List Char)
deriving DecidableEq, Repr

/-- A POST request. CURLOPT_POSTFIELDS, which every handle sets, makes it one. -/
structure Request where
  url : List Char
  body : List Char
  userPwd : Option (List Char)
deriving DecidableEq, Repr

/-- Without a size the fields end at the first NUL. -/
def Handle.perform (h : Handle) : Request where
  url := h.url
  body := match h.postFieldSize with
    | none => h.postFields.takeWhile (· ≠ Char.ofNat 0)
    | some size => h.postFields.take size
  userPwd := h.userPwd

def createReadHandle : Handle := ⟨[], "\n".toList, none, none⟩

def createWriteHandle (url : List Char) : Handle := ⟨url, "\n".toList, none, none⟩

structure Http where
  writeHandle : Handle
  readHandle : Handle
  readUrl : List Char
  influxDbServiceUrl : List Char
  databaseName : List Char
deriving DecidableEq, Repr

structure Done (α : Type) where
  request : Option Request
  result : Except Thrown α

/-- What the class takes from curl: the texts of its return codes, and the
escaping of a query. -/
structure Curl where
  strerror : Nat → List Char
  escape : List Char → List Char

variable (curl : Curl)

/-- Status 500 is in none of the ranges. -/
def treatCurlResponse (t : Transfer) : Except Thrown Unit :=
  if t.response ≠ curleOk then .error (.runtimeError (curl.strerror t.response))
  else if t.responseCode.toInt = 404 then
    .error (.runtimeError ("Nonexistent database: ".toList ++ signed t.responseCode))
  else if 400 ≤ t.responseCode.toInt ∧ t.responseCode.toInt < 500 then
    .error (.runtimeError ("Bad request: ".toList ++ signed t.responseCode))
  else if 500 < t.responseCode.toInt then
    .error (.runtimeError ("Influx server error:".toList ++ signed t.responseCode))
  else .ok ()

/-- At position 0 the index wraps around and at throws. -/
def initCurl (globalInitResult : Nat) (url : List Char) (t : Transfer) : Done Handle :=
  if globalInitResult ≠ curleOk then
    ⟨none, .error (.runtimeError (curl.strerror globalInitResult))⟩
  else
    match find ['?'] url with
    | none => ⟨none, .error (.runtimeError "Database not specified".toList)⟩
    | some position =>
        match before url position with
        | none => ⟨none, .error .outOfRange⟩
        | some c =>
            let new := if c ≠ '/' then "/write".toList else "write".toList
            let writeHandle := createWriteHandle (insertAt position new url)
            ⟨some writeHandle.perform, (treatCurlResponse curl t).map fun _ => writeHandle⟩

/-- Reached behind initCurl only, which has found the question mark. -/
def initCurlRead (url : List Char) : List Char :=
  let readUrl := url ++ "&q=".toList
  match find ['?'] readUrl with
  | none => readUrl
  | some pos =>
      insertAt pos (if before readUrl pos ≠ some '/' then "/query".toList else "query".toList) readUrl

def obtainInfluxServiceUrl (url : List Char) : Except Thrown (List Char) :=
  match find ['?'] url with
  | none => .error .outOfRange
  | some questionMarkPosition =>
      match before url questionMarkPosition with
      | none => .error .outOfRange
      | some c =>
          if c = '/' then .ok (url.take (questionMarkPosition - 1))
          else .ok (url.take questionMarkPosition)

/-- Without the parameter the position is npos, and 3 more is 2. -/
def obtainDatabaseName (url : List Char) : Except Thrown (List Char) :=
  let start := match find "db=".toList url with
    | none => 2
    | some dbParameterPosition => dbParameterPosition + 3
  if url.length < start then .error .outOfRange else .ok (url.drop start)

def http (globalInitResult : Nat) (url : List Char) (t : Transfer) : Done Http :=
  let r := initCurl curl globalInitResult url t
  ⟨r.request, do
    let writeHandle ← r.result
    let influxDbServiceUrl ← obtainInfluxServiceUrl url
    let databaseName ← obtainDatabaseName url
    pure ⟨writeHandle, createReadHandle, initCurlRead url, influxDbServiceUrl, databaseName⟩⟩

namespace Http

def enableBasicAuth (s : Http) (auth : List Char) : Http :=
  { s with
    writeHandle := { s.writeHandle with userPwd := some auth }
    readHandle := { s.readHandle with userPwd := some auth } }

def send (s : Http) (lineprotocol : List Char) (t : Transfer) : Http × Done Unit :=
  let writeHandle := { s.writeHandle with
    postFields := lineprotocol, postFieldSize := some lineprotocol.length }
  ({ s with writeHandle := writeHandle }, ⟨some writeHandle.perform, treatCurlResponse curl t⟩)

def query (s : Http) (query : List Char) (t : Transfer) : Http × Done (List Char) :=
  let readHandle := { s.readHandle with url := s.readUrl ++ curl.escape query }
  ({ s with readHandle := readHandle },
    ⟨some readHandle.perform, (treatCurlResponse curl t).map fun _ => t.contents⟩)

/-- On a handle of its own, which has no credentials. -/
def createDatabase (s : Http) (t : Transfer) : Done Unit :=
  let postFields := "q=CREATE DATABASE ".toList ++ s.databaseName
  let createHandle := { createWriteHandle (s.influxDbServiceUrl ++ "/query".toList) with
    postFields := postFields, postFieldSize := some postFields.length }
  ⟨some createHandle.perform, treatCurlResponse curl t⟩

end Http

theorem treatCurlResponse_ok_iff (t : Transfer) :
    treatCurlResponse curl t = .ok () ↔
      t.response = curleOk ∧ (t.responseCode.toInt < 400 ∨ t.responseCode.toInt = 500) := by
  rw [treatCurlResponse]
  split
  · next h => exact iff_of_false (by simp) fun hc => h hc.1
  · next h =>
      rw [and_iff_right (not_not.mp h)]
      split
      · exact iff_of_false (by simp) (by omega)
      · split
        · exact iff_of_false (by simp) (by omega)
        · split
          · exact iff_of_false (by simp) (by omega)
          · exact iff_of_true rfl (by omega)

def service (base : List Char) : List Char :=
  if base.getLast? = some '/' then base.dropLast else base

theorem service_concat (front : List Char) (c : Char) :
    service (front ++ [c]) = if c = '/' then front else front ++ [c] := by
  rw [service, List.getLast?_concat, List.dropLast_concat]
  simp only [Option.some.injEq]

section Endpoints

variable (front word rest query : List Char) (c : Char)

theorem insertAt_service :
    insertAt (front ++ [c]).length (if c ≠ '/' then '/' :: word else word) (front ++ [c] ++ rest) =
      service (front ++ [c]) ++ '/' :: word ++ rest := by
  rw [insertAt_append, service_concat]
  by_cases hc : c = '/'
  · rw [if_neg (not_not.mpr hc), if_pos hc, hc]
    simp
  · rw [if_pos hc, if_neg hc]
    simp

theorem before_mark :
    before (front ++ [c] ++ '?' :: query) (front ++ [c]).length = some c := by
  rw [List.length_append, List.length_singleton, List.append_assoc, List.singleton_append,
    before_append]

variable (h : '?' ∉ front ++ [c])

include h

theorem initCurl_mark (t : Transfer) :
    initCurl curl curleOk (front ++ [c] ++ '?' :: query) t =
      let writeHandle := createWriteHandle (service (front ++ [c]) ++ "/write?".toList ++ query)
      ⟨some writeHandle.perform, (treatCurlResponse curl t).map fun _ => writeHandle⟩ := by
  have hurl := insertAt_service front "write".toList ('?' :: query) c
  have hword : service (front ++ [c]) ++ '/' :: "write".toList ++ '?' :: query =
      service (front ++ [c]) ++ "/write?".toList ++ query := by simp
  rw [initCurl, if_neg (not_not.mpr rfl), find_char '?' _ query h]
  simp only [before_mark]
  rw [← hword, ← hurl]
  rfl

theorem initCurlRead_mark :
    initCurlRead (front ++ [c] ++ '?' :: query) =
      service (front ++ [c]) ++ "/query?".toList ++ query ++ "&q=".toList := by
  have hurl := insertAt_service front "query".toList ('?' :: (query ++ "&q=".toList)) c
  have htext : front ++ [c] ++ '?' :: query ++ "&q=".toList =
      front ++ [c] ++ '?' :: (query ++ "&q=".toList) := by
    rw [List.append_assoc _ ('?' :: query), List.cons_append]
  have hword : service (front ++ [c]) ++ '/' :: "query".toList ++ '?' :: (query ++ "&q=".toList) =
      service (front ++ [c]) ++ "/query?".toList ++ query ++ "&q=".toList := by simp
  rw [initCurlRead, htext, find_char '?' _ _ h, ← hword, ← hurl]
  simp only [before_mark, ne_eq, Option.some.injEq]
  rfl

theorem obtainInfluxServiceUrl_mark :
    obtainInfluxServiceUrl (front ++ [c] ++ '?' :: query) = .ok (service (front ++ [c])) := by
  rw [obtainInfluxServiceUrl, find_char '?' _ query h]
  simp only [before_mark]
  rw [service_concat, List.take_left]
  split
  · rw [List.length_append, List.length_singleton, Nat.add_sub_cancel, List.append_assoc, List.take_left]
  · rfl

end Endpoints

theorem obtainDatabaseName_ok (url : List Char) (h : 2 ≤ url.length) :
    ∃ name, obtainDatabaseName url = .ok name ∧
      (∀ front, find "db=".toList url = some front → url = url.take front ++ "db=".toList ++ name) ∧
      (find "db=".toList url = none → name = url.drop 2) := by
  rw [obtainDatabaseName]
  cases hfind : find "db=".toList url with
  | none =>
      refine ⟨url.drop 2, if_neg (Nat.not_lt.mpr h), ?_, fun _ => rfl⟩
      intro front hf
      cases hf
  | some n =>
      obtain ⟨hn, ⟨name, hname⟩, -⟩ := (find_eq_some_iff _ _ _).mp hfind
      have hthree : "db=".toList.length = 3 := rfl
      have hlen := congrArg List.length hname
      rw [List.length_append, hthree, List.length_drop] at hlen
      have hdrop : url.drop (n + 3) = name := by
        rw [← List.drop_drop, ← hname, ← hthree, List.drop_left]
      have hle : n + 3 ≤ url.length := by omega
      refine ⟨name, ?_, ?_, fun hf => nomatch hf⟩
      · exact (if_neg (Nat.not_lt.mpr hle)).trans (congrArg Except.ok hdrop)
      · intro front hf
        cases hf
        rw [List.append_assoc, hname, List.take_append_drop]

structure Connected (base query name : List Char) (s : Http) : Prop where
  writeHandle : s.writeHandle = createWriteHandle (service base ++ "/write?".toList ++ query)
  readHandle : s.readHandle = createReadHandle
  readUrl : s.readUrl = service base ++ "/query?".toList ++ query ++ "&q=".toList
  influxDbServiceUrl : s.influxDbServiceUrl = service base
  databaseName : s.databaseName = name

/-- The constructor probes the database without credentials, and comes back if
the response is accepted. -/
theorem http_mark (base query : List Char) (t : Transfer) (hbase : base ≠ []) (h : '?' ∉ base) :
    let url := base ++ '?' :: query
    let r := http curl curleOk url t
    r.request = some ⟨service base ++ "/write?".toList ++ query, "\n".toList, none⟩ ∧
      ((∃ s, r.result = .ok s) ↔ treatCurlResponse curl t = .ok ()) ∧
      ∀ s, r.result = .ok s → ∃ name, obtainDatabaseName url = .ok name ∧ Connected base query name s := by
  rcases List.eq_nil_or_concat base with rfl | ⟨front, c, rfl⟩
  · exact absurd rfl hbase
  · rw [List.concat_eq_append] at h ⊢
    have hlen : 2 ≤ (front ++ [c] ++ '?' :: query).length := by
      simp only [List.length_append, List.length_cons]
      omega
    obtain ⟨name, hname, -, -⟩ := obtainDatabaseName_ok _ hlen
    dsimp only
    rw [http, initCurl_mark curl front query c h, obtainInfluxServiceUrl_mark front query c h,
      initCurlRead_mark front query c h, hname]
    refine ⟨rfl, ?_, ?_⟩
    · cases treatCurlResponse curl t with
      | error e => exact iff_of_false (fun ⟨s, hs⟩ => nomatch hs) (by simp)
      | ok u => exact iff_of_true ⟨_, rfl⟩ rfl
    · intro s hs
      refine ⟨name, rfl, ?_⟩
      cases htreat : treatCurlResponse curl t with
      | error e =>
          rw [htreat] at hs
          cases hs
      | ok u =>
          rw [htreat] at hs
          cases hs
          exact ⟨rfl, rfl, rfl, rfl, rfl⟩

theorem http_ok (globalInitResult : Nat) (url : List Char) (t : Transfer) (s : Http)
    (h : (http curl globalInitResult url t).result = .ok s) :
    globalInitResult = curleOk ∧ ∃ base query, url = base ++ '?' :: query ∧ base ≠ [] ∧ '?' ∉ base := by
  by_cases hinit : globalInitResult = curleOk
  · refine ⟨hinit, ?_⟩
    by_cases hmark : '?' ∈ url
    · obtain ⟨base, query, rfl, hbase⟩ := List.eq_append_cons_of_mem hmark
      refine ⟨base, query, rfl, ?_, hbase⟩
      rintro rfl
      rw [http, initCurl, if_neg (not_not.mpr hinit), find_char '?' [] query hbase] at h
      cases h
    · rw [http, initCurl, if_neg (not_not.mpr hinit), (find_char_none '?' url).mpr hmark] at h
      cases h
  · rw [http, initCurl, if_pos hinit] at h
    cases h

inductive Operation
  | enableBasicAuth (auth : List Char)
  | send (lineprotocol : List Char)
  | query (query : List Char)
  | createDatabase

def Done.map {α β : Type} (f : α → β) (d : Done α) : Done β := ⟨d.request, d.result.map f⟩

def operate (s : Http) (t : Transfer) : Operation → Http × Done (List Char)
  | .enableBasicAuth auth => (s.enableBasicAuth auth, ⟨none, .ok []⟩)
  | .send lineprotocol => Prod.map id (Done.map fun _ => []) (s.send curl lineprotocol t)
  | .query query => s.query curl query t
  | .createDatabase => (s, (s.createDatabase curl t).map fun _ => [])

def owner : Machine Http (Operation × Transfer) (Done (List Char)) where
  next s i := (operate curl s i.2 i.1).1
  out s i := (operate curl s i.2 i.1).2

/-- The requests of the service: what they are depends on the credentials only,
which the last call of enableBasicAuth has set. -/
def requests (root query name : List Char) :
    Machine (Option (List Char)) (Operation × Transfer) (Option Request) where
  next auth
    | (.enableBasicAuth auth', _) => some auth'
    | _ => auth
  out auth
    | (.enableBasicAuth _, _) => none
    | (.send lineprotocol, _) => some ⟨root ++ "/write?".toList ++ query, lineprotocol, auth⟩
    | (.query text, _) =>
        some ⟨root ++ "/query?".toList ++ query ++ "&q=".toList ++ curl.escape text, "\n".toList, auth⟩
    | (.createDatabase, _) =>
        some ⟨root ++ "/query".toList, "q=CREATE DATABASE ".toList ++ name, none⟩

structure Serves (root query name : List Char) (s : Http) (auth : Option (List Char)) : Prop where
  writeUrl : s.writeHandle.url = root ++ "/write?".toList ++ query
  writeAuth : s.writeHandle.userPwd = auth
  readFields : s.readHandle.postFields = "\n".toList
  readSize : s.readHandle.postFieldSize = none
  readAuth : s.readHandle.userPwd = auth
  readUrl : s.readUrl = root ++ "/query?".toList ++ query ++ "&q=".toList
  serviceUrl : s.influxDbServiceUrl = root
  databaseName : s.databaseName = name

theorem Connected.serves {base query name : List Char} {s : Http} (h : Connected base query name s) :
    Serves (service base) query name s none := by
  refine ⟨?_, ?_, ?_, ?_, ?_, h.readUrl, h.influxDbServiceUrl, h.databaseName⟩
  · rw [h.writeHandle]
    rfl
  · rw [h.writeHandle]
    rfl
  · rw [h.readHandle]
    rfl
  · rw [h.readHandle]
    rfl
  · rw [h.readHandle]
    rfl

theorem operate_serves {root query name : List Char} {s : Http} {auth : Option (List Char)}
    (h : Serves root query name s auth) (i : Operation × Transfer) :
    ((owner curl).out s i).request = (requests curl root query name).out auth i ∧
      Serves root query name ((owner curl).next s i) ((requests curl root query name).next auth i) := by
  obtain ⟨op, t⟩ := i
  cases op with
  | enableBasicAuth auth' =>
      exact ⟨rfl, h.writeUrl, rfl, h.readFields, h.readSize, rfl, h.readUrl, h.serviceUrl, h.databaseName⟩
  | send lineprotocol =>
      refine ⟨?_, h.writeUrl, h.writeAuth, h.readFields, h.readSize, h.readAuth, h.readUrl, h.serviceUrl,
        h.databaseName⟩
      change some (Request.mk s.writeHandle.url (lineprotocol.take lineprotocol.length)
        s.writeHandle.userPwd) = _
      rw [h.writeUrl, h.writeAuth, List.take_length]
      rfl
  | query text =>
      refine ⟨?_, h.writeUrl, h.writeAuth, h.readFields, h.readSize, h.readAuth, h.readUrl, h.serviceUrl,
        h.databaseName⟩
      change some (Handle.perform { s.readHandle with url := s.readUrl ++ curl.escape text }) = _
      simp only [Handle.perform, h.readSize, h.readFields, h.readAuth, h.readUrl]
      rfl
  | createDatabase =>
      refine ⟨?_, h⟩
      change some (Handle.perform { createWriteHandle (s.influxDbServiceUrl ++ "/query".toList) with
        postFields := _, postFieldSize := _ }) = _
      simp only [Handle.perform, h.serviceUrl, h.databaseName, List.take_length]
      rfl

/-- When the constructor comes back, and the requests of all later calls in any
order, whatever the transfers come to. -/
theorem http_requests (globalInitResult : Nat) (url : List Char) (probe : Transfer) :
    let r := http curl globalInitResult url probe
    ((∃ s, r.result = .ok s) ↔ globalInitResult = curleOk ∧
      (∃ base query, url = base ++ '?' :: query ∧ base ≠ [] ∧ '?' ∉ base) ∧
      probe.response = curleOk ∧ (probe.responseCode.toInt < 400 ∨ probe.responseCode.toInt = 500)) ∧
    ∀ s, r.result = .ok s → ∃ base query name, url = base ++ '?' :: query ∧ '?' ∉ base ∧
      obtainDatabaseName url = .ok name ∧
      r.request = some ⟨service base ++ "/write?".toList ++ query, "\n".toList, none⟩ ∧
      ∀ calls, ((owner curl).outputs s calls).map Done.request =
        (requests curl (service base) query name).outputs none calls := by
  intro r
  refine ⟨⟨?_, ?_⟩, ?_⟩
  · rintro ⟨s, hs⟩
    obtain ⟨rfl, base, query, rfl, hbase, hmark⟩ := http_ok curl globalInitResult url probe s hs
    obtain ⟨-, hok, -⟩ := http_mark curl base query probe hbase hmark
    exact ⟨rfl, ⟨base, query, rfl, hbase, hmark⟩, (treatCurlResponse_ok_iff curl probe).mp (hok.mp ⟨s, hs⟩)⟩
  · rintro ⟨rfl, ⟨base, query, rfl, hbase, hmark⟩, haccepted⟩
    obtain ⟨-, hok, -⟩ := http_mark curl base query probe hbase hmark
    exact hok.mpr ((treatCurlResponse_ok_iff curl probe).mpr haccepted)
  · intro s hs
    obtain ⟨rfl, base, query, rfl, hbase, hmark⟩ := http_ok curl globalInitResult url probe s hs
    obtain ⟨hrequest, -, hmembers⟩ := http_mark curl base query probe hbase hmark
    obtain ⟨name, hname, hconnected⟩ := hmembers s hs
    refine ⟨base, query, name, rfl, hmark, hname, hrequest, ?_⟩
    intro calls
    exact (owner curl).outputs_simulated (requests curl (service base) query name) Done.request
      (Serves (service base) query name) (fun s auth i h => operate_serves curl h i) s none
      hconnected.serves calls

end IntPlatform.Exporter.HttpTransport
