import VelocitasFix.Dashboard.Rendering
import VelocitasFix.Data.KeyedTable
import VelocitasFix.Data.Machine

/-!
This module contains what a client reads when it asks the dashboard for the sessions or for the health
of the engine: the response is well-formed HTTP, and its body gives back the last status of each
session that was not removed, or the last health.
-/

namespace Velocitas

open Ascii

-- What is in the response: the status line, three headers, and the body.
def HttpResponse.message (resp : HttpResponse) : Http.Message where
  startLine := ascii "HTTP/1.1 " ++ decimal resp.statusCode ++ ascii " " ++ statusText resp.statusCode
  headers := [(ascii "Content-Type", Utf8.encode resp.contentType),
    (Http.contentLengthName, decimal (Utf8.encode resp.body).length),
    (ascii "Connection", ascii "close")]
  body := Utf8.encode resp.body

theorem HttpResponse.bytes_eq (resp : HttpResponse) : resp.bytes = resp.message.bytes := by
  have htype : ascii "\r\nContent-Type: " = 13 :: 10 :: (ascii "Content-Type" ++ [58, 32]) := by
    decide +kernel
  have hlength : ascii "\r\nContent-Length: "
      = 13 :: 10 :: (Http.contentLengthName ++ [58, 32]) := by
    decide +kernel
  have hclose : ascii "\r\nConnection: close\r\n\r\n"
      = 13 :: 10 :: (ascii "Connection" ++ 58 :: 32 :: (ascii "close" ++ [13, 10, 13, 10])) := by
    decide +kernel
  unfold bytes Http.Message.bytes message Http.headerLine
  rw [htype, hlength, hclose]
  simp only [List.flatMap_cons, List.flatMap_nil, List.append_assoc, List.cons_append,
    List.nil_append]

-- What a client makes of the bytes that it receives, and what is left of them.
def fetch (bytes : Bytes) : Option (Bytes × Json.Value × Bytes) := do
  let (message, later) ← Http.read bytes
  let text ← Utf8.decode message.body
  let value ← Json.read 3 text.toList
  some (message.startLine, value, later)

theorem fetch_json {body : String} {value : Json.Value}
    (h : Json.Reads (Json.value 3) body.toList value) (later : Bytes)
    : fetch ((HttpResponse.json body).bytes ++ later)
        = some (ascii "HTTP/1.1 200 OK", value, later) := by
  have hstart : (HttpResponse.json body).message.startLine = ascii "HTTP/1.1 200 OK" := by
    change ascii "HTTP/1.1 " ++ decimal 200 ++ ascii " " ++ ascii "OK" = _
    decide +kernel
  have hheaders : ∀ h ∈ (HttpResponse.json body).message.headers, Http.IsHeader h := by
    have hdigits (b : UInt8) (hb : ¬ IsDigit b)
        : b ∉ decimal (Utf8.encode body).length := (allDigits_decimal _).not_mem hb
    intro h hmem
    rcases List.mem_cons.mp hmem with rfl | hmem
    . change Http.IsHeader (ascii "Content-Type", Utf8.encode "application/json")
      decide +kernel
    . rcases List.mem_cons.mp hmem with rfl | hmem
      . have hname : 13 ∉ Http.contentLengthName ∧ 58 ∉ Http.contentLengthName := by decide
        refine ⟨hname, hdigits 13 (by decide), ?_⟩
        intro hhead
        exact hdigits 32 (by decide) (List.mem_of_head? hhead)
      . rw [List.mem_singleton.mp hmem]
        decide
  have hlength : (HttpResponse.json body).message.headers.lookup Http.contentLengthName
      = some (decimal (HttpResponse.json body).message.body.length) := rfl
  have hread := Http.read_bytes (by rw [hstart]; decide) hheaders hlength later
  unfold fetch
  rw [HttpResponse.bytes_eq, hread]
  simp only [Option.bind_eq_bind, Option.bind_some]
  change (Utf8.decode (Utf8.encode body)).bind _ = _
  rw [Utf8.decode_encode, Option.bind_some, Json.read_of_reads h, hstart]
  rfl

namespace Dashboard

-- What can happen to a dashboard: the engine updates it, or its server takes a connection.
inductive Call where
  | updateSession (status : SessionStatus)
  | removeSession (sessionId : String)
  | updateHealth (health : HealthStatus)
  | serve (uptimeSecs : UInt64) (request : Bytes)

def call (dash : Dashboard) : Call → Dashboard
  | .updateSession status => dash.updateSession status
  | .removeSession sessionId => dash.removeSession sessionId
  | .updateHealth health => dash.updateHealth health
  | .serve uptimeSecs request => (dash.serve uptimeSecs request).2

def run (config : DashboardConfig) (calls : List Call) : Dashboard :=
  calls.foldl call (new config)

-- What a call makes of the status that a session has, and of the health.
def Call.statusAfter (sessionId : String) (status : Option SessionStatus)
    : Call → Option SessionStatus
  | .updateSession status' => if status'.sessionId = sessionId then some status' else status
  | .removeSession removed => if removed = sessionId then none else status
  | _ => status

def Call.healthAfter (health : HealthStatus) : Call → HealthStatus
  | .updateHealth health' => health'
  | .serve uptimeSecs _ => { health with uptimeSecs }
  | _ => health

-- The last status of a session, unless it was removed after it.
def latest (calls : List Call) (sessionId : String) : Option SessionStatus :=
  calls.foldl (Call.statusAfter sessionId) none

def reported (calls : List Call) : HealthStatus := calls.foldl Call.healthAfter .default

def status (dash : Dashboard) (sessionId : String) : Option SessionStatus :=
  KeyedTable.row (·.sessionId) dash.sessions sessionId

-- No session is in the table twice.
def Distinct (dash : Dashboard) : Prop := (dash.sessions.map (·.sessionId)).Nodup

variable {dash : Dashboard}

theorem sessions_updateSession (dash : Dashboard) (status : SessionStatus)
    : (dash.updateSession status).sessions
        = KeyedTable.upsert (·.sessionId) (fun s status => { status with sessionId := s.sessionId })
          dash.sessions status := by
  have hmodify : dash.sessions.modifyFirst (fun s => s.sessionId = status.sessionId) (fun _ => status)
      = dash.sessions.modifyFirst (fun s => s.sessionId = status.sessionId)
        fun s => { status with sessionId := s.sessionId } := by
    apply List.modifyFirst_congr
    intro s _ hs
    rw [decide_eq_true_eq] at hs
    rw [hs]
  unfold updateSession KeyedTable.upsert
  rw [hmodify]
  split
  . next hsome => rw [hsome]
  . next hnone => rw [hnone]

theorem updateSession_status (hdistinct : dash.Distinct) (status : SessionStatus)
    : (dash.updateSession status).Distinct
        ∧ ∀ id, (dash.updateSession status).status id
          = if status.sessionId = id then some status else dash.status id := by
  have hkey (s status : SessionStatus)
      : { status with sessionId := s.sessionId }.sessionId = s.sessionId := rfl
  constructor
  . unfold Distinct
    rw [sessions_updateSession, KeyedTable.map_key_upsert hkey]
    split
    . exact hdistinct
    . next hnew =>
      apply List.nodup_append.mpr
      exact ⟨hdistinct, List.nodup_singleton _, by simpa using hnew⟩
  . intro id
    unfold Dashboard.status
    rw [sessions_updateSession, KeyedTable.row_upsert hkey]
    split
    . next hid =>
      rw [KeyedTable.rowAfter, List.foldl_cons, List.foldl_nil]
      cases hrow : KeyedTable.row (·.sessionId) dash.sessions id with
      | none => rfl
      | some s =>
        have hs := ((KeyedTable.row_eq_some_iff hdistinct).mp hrow).2
        rw [Option.elim, hs, ← hid]
    . rfl

theorem removeSession_status (hdistinct : dash.Distinct) (sessionId : String)
    : (dash.removeSession sessionId).Distinct
        ∧ ∀ id, (dash.removeSession sessionId).status id
          = if sessionId = id then none else dash.status id := by
  constructor
  . exact hdistinct.sublist (List.filter_sublist.map _)
  . intro id
    unfold Dashboard.status KeyedTable.row removeSession
    rw [List.find?_filter]
    split
    . next hid =>
      rw [List.find?_eq_none]
      intro s _
      simp [hid]
    . next hne =>
      congr 1
      funext s
      by_cases hs : s.sessionId = id
      . simp [hs, Ne.symm hne]
      . simp [hs]

theorem serve_snd (dash : Dashboard) (uptimeSecs : UInt64) (request : Bytes)
    : (dash.serve uptimeSecs request).2 = dash.updateHealth { dash.health with uptimeSecs } := by
  unfold serve
  dsimp only
  split
  . rfl
  . split
    . rfl
    . rfl

theorem call_status (hdistinct : dash.Distinct) (call : Call)
    : (dash.call call).Distinct
        ∧ ∀ id, (dash.call call).status id = call.statusAfter id (dash.status id) := by
  cases call with
  | updateSession status => exact updateSession_status hdistinct status
  | removeSession sessionId => exact removeSession_status hdistinct sessionId
  | updateHealth health => exact ⟨hdistinct, fun _ => rfl⟩
  | serve uptimeSecs request =>
    rw [Dashboard.call, serve_snd]
    exact ⟨hdistinct, fun _ => rfl⟩

theorem call_health (dash : Dashboard) (call : Call)
    : (dash.call call).config = dash.config
        ∧ (dash.call call).health = call.healthAfter dash.health := by
  cases call with
  | updateSession status =>
    unfold Dashboard.call updateSession
    dsimp only
    split
    . exact ⟨rfl, rfl⟩
    . exact ⟨rfl, rfl⟩
  | removeSession sessionId => exact ⟨rfl, rfl⟩
  | updateHealth health => exact ⟨rfl, rfl⟩
  | serve uptimeSecs request =>
    rw [Dashboard.call, serve_snd]
    exact ⟨rfl, rfl⟩

theorem run_status (config : DashboardConfig) (calls : List Call)
    : (run config calls).Distinct ∧ ∀ id, (run config calls).status id = latest calls id := by
  have hrun (pre : List Call) (dash : Dashboard) (hdistinct : dash.Distinct)
      : (pre.foldl call dash).Distinct
          ∧ ∀ id, (pre.foldl call dash).status id
            = pre.foldl (Call.statusAfter id) (dash.status id) := by
    induction pre generalizing dash with
    | nil => exact ⟨hdistinct, fun _ => rfl⟩
    | cons c pre ih =>
      obtain ⟨hnext, hstatus⟩ := call_status hdistinct c
      obtain ⟨hend, hends⟩ := ih (dash.call c) hnext
      refine ⟨hend, fun id => ?_⟩
      rw [List.foldl_cons, List.foldl_cons, hends, hstatus]
  exact hrun calls (new config) List.nodup_nil

theorem run_health (config : DashboardConfig) (calls : List Call)
    : (run config calls).config = config ∧ (run config calls).health = reported calls := by
  have hrun (pre : List Call) (dash : Dashboard)
      : (pre.foldl call dash).config = dash.config
          ∧ (pre.foldl call dash).health = pre.foldl Call.healthAfter dash.health := by
    induction pre generalizing dash with
    | nil => exact ⟨rfl, rfl⟩
    | cons c pre ih =>
      obtain ⟨hconfig, hhealth⟩ := dash.call_health c
      obtain ⟨hconfigs, hhealths⟩ := ih (dash.call c)
      rw [List.foldl_cons, List.foldl_cons, hconfigs, hhealths, hconfig, hhealth]
      exact ⟨rfl, rfl⟩
  exact hrun calls (new config)

-- A session whose name needs to be escaped, and one that is removed.
def sampleStatus (sessionId : String) (outboundSeq : UInt64) : SessionStatus where
  sessionId := sessionId
  senderCompId := "BANK_OMS"
  targetCompId := "NYSE"
  state := "Active"
  outboundSeq := outboundSeq
  inboundSeq := 41234
  messagesSent := 1234567
  messagesReceived := 987654
  lastActivityMs := 1711008000000
  uptimeSecs := 28800

def sampleCalls : List Call :=
  [.updateSession (sampleStatus "NYSE-\"1\"\n" 1), .updateSession (sampleStatus "LSE-1" 7),
    .updateSession (sampleStatus "NYSE-\"1\"\n" 2), .removeSession "LSE-1"]

def sampleRequest (path : String) : Bytes :=
  ascii ("GET " ++ path ++ " HTTP/1.1\r\nHost: localhost\r\n\r\n")

section Fetch

variable {config : DashboardConfig} {request : Bytes} {path : String}

theorem serve_of_request (uptimeSecs : UInt64)
    (hrequest : (firstLine request).bind parseRequestLine = some ("GET", path))
    : (dash.serve uptimeSecs request).1
        = some ((dash.updateHealth { dash.health with uptimeSecs }).handleRequest "GET"
          path).bytes := by
  unfold serve
  obtain ⟨line, hline, hparse⟩ := Option.bind_eq_some_iff.mp hrequest
  rw [hline]
  dsimp only
  rw [hparse]

end Fetch

end Dashboard

end Velocitas
