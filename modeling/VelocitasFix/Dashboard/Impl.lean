import VelocitasFix.Data.Http
import VelocitasFix.Data.ModifyFirst
import VelocitasFix.Data.Utf8
import VelocitasFix.Tags

/-!
This module contains the dashboard: the table of the sessions and the health of the engine, the pages
that show them, and the HTTP server that answers requests for the pages.
-/

namespace Velocitas

open Ascii

structure DashboardConfig where
  refreshIntervalMs : UInt64
  enableMetricsEndpoint : Bool
  enableSessionsEndpoint : Bool
  enableHealthEndpoint : Bool
  deriving DecidableEq, Repr

def DashboardConfig.default : DashboardConfig where
  refreshIntervalMs := 5000
  enableMetricsEndpoint := true
  enableSessionsEndpoint := true
  enableHealthEndpoint := true

structure SessionStatus where
  sessionId : String
  senderCompId : String
  targetCompId : String
  state : String
  outboundSeq : UInt64
  inboundSeq : UInt64
  messagesSent : UInt64
  messagesReceived : UInt64
  lastActivityMs : UInt64
  uptimeSecs : UInt64
  deriving DecidableEq, Repr

structure HealthStatus where
  healthy : Bool
  version : String
  uptimeSecs : UInt64
  activeSessions : Nat
  messagesProcessed : UInt64
  engineState : String
  deriving DecidableEq, Repr

def HealthStatus.default : HealthStatus where
  healthy := true
  version := "0.1.0"
  uptimeSecs := 0
  activeSessions := 0
  messagesProcessed := 0
  engineState := "starting"

structure HttpResponse where
  statusCode : Nat
  contentType : String
  body : String
  deriving DecidableEq, Repr

namespace HttpResponse

def json (body : String) : HttpResponse := ⟨200, "application/json", body⟩

def html (body : String) : HttpResponse := ⟨200, "text/html; charset=utf-8", body⟩

def text (body : String) : HttpResponse := ⟨200, "text/plain; charset=utf-8", body⟩

def notFound : HttpResponse := ⟨404, "text/plain", "404 Not Found"⟩

def methodNotAllowed : HttpResponse := ⟨405, "text/plain", "405 Method Not Allowed"⟩

end HttpResponse

-- The format `{:04x}` of a number below 65536.
def hex4 (n : Nat) : List Char :=
  [(n / 4096 % 16).digitChar, (n / 256 % 16).digitChar, (n / 16 % 16).digitChar,
    (n % 16).digitChar]

def jsonEscapeChar (c : Char) : List Char :=
  match c with
  | '"' => ['\\', '"']
  | '\\' => ['\\', '\\']
  | '\n' => ['\\', 'n']
  | '\r' => ['\\', 'r']
  | '\t' => ['\\', 't']
  | c => if c.toNat < 0x20 then '\\' :: 'u' :: hex4 c.toNat else [c]

def jsonEscape (s : String) : String := String.ofList (s.toList.flatMap jsonEscapeChar)

structure Dashboard where
  config : DashboardConfig
  sessions : List SessionStatus
  health : HealthStatus
  deriving DecidableEq, Repr

namespace Dashboard

def new (config : DashboardConfig) : Dashboard where
  config := config
  sessions := []
  health := .default

def updateSession (dash : Dashboard) (status : SessionStatus) : Dashboard :=
  match dash.sessions.modifyFirst (fun s => s.sessionId = status.sessionId) fun _ => status with
  | some sessions => { dash with sessions }
  | none => { dash with sessions := dash.sessions ++ [status] }

def removeSession (dash : Dashboard) (sessionId : String) : Dashboard :=
  { dash with sessions := dash.sessions.filter fun s => s.sessionId ≠ sessionId }

def updateHealth (dash : Dashboard) (health : HealthStatus) : Dashboard := { dash with health }

def renderJsonHealth (dash : Dashboard) : String :=
  "\x7b" ++ "\"healthy\":" ++ toString dash.health.healthy
    ++ ",\"version\":\"" ++ jsonEscape dash.health.version ++ "\""
    ++ ",\"uptime_secs\":" ++ toString dash.health.uptimeSecs.toNat
    ++ ",\"active_sessions\":" ++ toString dash.health.activeSessions
    ++ ",\"messages_processed\":" ++ toString dash.health.messagesProcessed.toNat
    ++ ",\"engine_state\":\"" ++ jsonEscape dash.health.engineState ++ "\"" ++ "\x7d"

def renderJsonSession (s : SessionStatus) : String :=
  "\x7b" ++ "\"session_id\":\"" ++ jsonEscape s.sessionId ++ "\""
    ++ ",\"sender_comp_id\":\"" ++ jsonEscape s.senderCompId ++ "\""
    ++ ",\"target_comp_id\":\"" ++ jsonEscape s.targetCompId ++ "\""
    ++ ",\"state\":\"" ++ jsonEscape s.state ++ "\""
    ++ ",\"outbound_seq\":" ++ toString s.outboundSeq.toNat
    ++ ",\"inbound_seq\":" ++ toString s.inboundSeq.toNat
    ++ ",\"messages_sent\":" ++ toString s.messagesSent.toNat
    ++ ",\"messages_received\":" ++ toString s.messagesReceived.toNat
    ++ ",\"last_activity_ms\":" ++ toString s.lastActivityMs.toNat
    ++ ",\"uptime_secs\":" ++ toString s.uptimeSecs.toNat ++ "\x7d"

-- The loop over the sessions; `first` holds for the one with index zero.
def renderJsonLoop (out : String) (first : Bool) : List SessionStatus → String
  | [] => out
  | s :: sessions =>
    renderJsonLoop ((if first then out else out ++ ",") ++ renderJsonSession s) false sessions

def renderJsonSessions (dash : Dashboard) : String :=
  renderJsonLoop "[" true dash.sessions ++ "]"

def renderPrometheusMetrics (dash : Dashboard) : String :=
  "# HELP velocitas_up Engine health (1=up, 0=down)\n" ++ "# TYPE velocitas_up gauge\n"
    ++ "velocitas_up " ++ (if dash.health.healthy then "1" else "0") ++ "\n"
    ++ "# HELP velocitas_active_sessions Number of active FIX sessions\n"
    ++ "# TYPE velocitas_active_sessions gauge\n"
    ++ "velocitas_active_sessions " ++ toString dash.health.activeSessions ++ "\n"
    ++ "# HELP velocitas_messages_processed_total Total messages processed\n"
    ++ "# TYPE velocitas_messages_processed_total counter\n"
    ++ "velocitas_messages_processed_total " ++ toString dash.health.messagesProcessed.toNat ++ "\n"
    ++ "# HELP velocitas_uptime_seconds Engine uptime\n"
    ++ "# TYPE velocitas_uptime_seconds gauge\n"
    ++ "velocitas_uptime_seconds " ++ toString dash.health.uptimeSecs.toNat ++ "\n"

def renderJsonLatency : String :=
  "\x7b" ++ "\"p50_ns\":0" ++ ",\"p90_ns\":0" ++ ",\"p99_ns\":0" ++ ",\"p999_ns\":0" ++ ",\"count\":0"
    ++ "\x7d"

-- The style sheet of the page, and what stands between it and the heading.
def htmlStyle : String :=
  "<style>\n"
    ++ "body \x7b font-family: -apple-system, BlinkMacSystemFont, sans-serif; margin: 2em; "
    ++ "background: #f5f5f5; \x7d\n"
    ++ "h1 \x7b color: #333; \x7d\n"
    ++ ".status \x7b display: inline-block; padding: 4px 12px; border-radius: 4px; "
    ++ "color: #fff; font-weight: bold; \x7d\n"
    ++ ".status.healthy \x7b background: #27ae60; \x7d\n"
    ++ ".status.unhealthy \x7b background: #e74c3c; \x7d\n"
    ++ "table \x7b border-collapse: collapse; width: 100%; margin-top: 1em; background: #fff; \x7d\n"
    ++ "th, td \x7b border: 1px solid #ddd; padding: 8px; text-align: left; \x7d\n"
    ++ "th \x7b background: #2c3e50; color: #fff; \x7d\n"
    ++ "tr:nth-child(even) \x7b background: #f9f9f9; \x7d\n"
    ++ ".metrics \x7b display: flex; gap: 1em; margin-top: 1em; flex-wrap: wrap; \x7d\n"
    ++ ".metric-card \x7b background: #fff; border: 1px solid #ddd; border-radius: 4px; "
    ++ "padding: 1em; min-width: 180px; \x7d\n"
    ++ ".metric-value \x7b font-size: 1.8em; font-weight: bold; color: #2c3e50; \x7d\n"
    ++ ".metric-label \x7b color: #666; font-size: 0.9em; \x7d\n"
    ++ "</style>\n"
    ++ "</head>\n"
    ++ "<body>\n"

def renderHtmlSession (s : SessionStatus) : String :=
  "<tr><td>" ++ s.sessionId ++ "</td><td>" ++ s.senderCompId ++ "</td><td>" ++ s.targetCompId
    ++ "</td><td>" ++ s.state ++ "</td><td>" ++ toString s.outboundSeq.toNat
    ++ "</td><td>" ++ toString s.inboundSeq.toNat ++ "</td><td>" ++ toString s.messagesSent.toNat
    ++ "</td><td>" ++ toString s.messagesReceived.toNat
    ++ "</td><td>" ++ toString s.lastActivityMs.toNat
    ++ "</td><td>" ++ toString s.uptimeSecs.toNat ++ "</td></tr>"

def renderHtmlDashboard (dash : Dashboard) : String :=
  let refreshSecs := dash.config.refreshIntervalMs / 1000
  let statusClass := if dash.health.healthy then "healthy" else "unhealthy"
  let head := "<!DOCTYPE html>\n<html>\n<head>\n<meta charset=\"utf-8\">\n"
    ++ "<meta http-equiv=\"refresh\" content=\"" ++ toString refreshSecs.toNat ++ "\">\n"
    ++ "<title>Velocitas FIX Engine Dashboard</title>\n" ++ htmlStyle
    ++ "<h1>Velocitas FIX Engine</h1>"
  let state := "<p>Engine State: <span class=\"status " ++ statusClass ++ "\">"
    ++ dash.health.engineState ++ "</span></p>"
  let card (value label : String) : String :=
    "<div class=\"metric-card\"><div class=\"metric-value\">" ++ value
      ++ "</div><div class=\"metric-label\">" ++ label ++ "</div></div>\n"
  let metrics := "<div class=\"metrics\">\n"
    ++ card (toString dash.health.activeSessions) "Active Sessions"
    ++ card (toString dash.health.messagesProcessed.toNat) "Messages Processed"
    ++ card (toString dash.health.uptimeSecs.toNat) "Uptime (secs)"
    ++ card dash.health.version "Version" ++ "</div>"
  let sessions :=
    if dash.sessions.isEmpty then
      "<p>No active sessions.</p>"
    else
      "<table><tr><th>Session ID</th><th>Sender</th><th>Target</th><th>State</th>"
        ++ "<th>Out Seq</th><th>In Seq</th><th>Sent</th><th>Received</th>"
        ++ "<th>Last Activity (ms)</th><th>Uptime (s)</th></tr>"
        ++ dash.sessions.foldl (fun html s => html ++ renderHtmlSession s) "" ++ "</table>"
  head ++ state ++ metrics ++ "<h2>Sessions</h2>" ++ sessions ++ "</body></html>"

def handleRequest (dash : Dashboard) (method path : String) : HttpResponse :=
  if method ≠ "GET" then
    .methodNotAllowed
  else if path = "/health" then
    if dash.config.enableHealthEndpoint then .json dash.renderJsonHealth else .notFound
  else if path = "/metrics" then
    if dash.config.enableMetricsEndpoint then .text dash.renderPrometheusMetrics else .notFound
  else if path = "/sessions" then
    if dash.config.enableSessionsEndpoint then .json dash.renderJsonSessions else .notFound
  else if path = "/" then
    .html dash.renderHtmlDashboard
  else if path = "/api/latency" then
    .json renderJsonLatency
  else
    .notFound

end Dashboard

-- The white space of Unicode.
def isWhitespace (c : Char) : Bool :=
  (9 ≤ c.toNat && c.toNat ≤ 13) || c.toNat = 0x20 || c.toNat = 0x85 || c.toNat = 0xa0
    || c.toNat = 0x1680 || (0x2000 ≤ c.toNat && c.toNat ≤ 0x200a) || c.toNat = 0x2028
    || c.toNat = 0x2029 || c.toNat = 0x202f || c.toNat = 0x205f || c.toNat = 0x3000

def splitWhitespace (line : String) : List String :=
  ((line.toList.splitOnP isWhitespace).filter (· ≠ [])).map String.ofList

def parseRequestLine (line : String) : Option (String × String) :=
  match splitWhitespace line with
  | method :: path :: _ => some (method, path)
  | _ => none

-- The first of the lines of what the client sends; `none` if there is none, or if it is not UTF-8.
def firstLine (request : Bytes) : Option String :=
  if request = [] then
    none
  else
    let text := request.takeWhile (· ≠ 10)
    if text.length < request.length ∧ text.getLast? = some 13 then
      Utf8.decode text.dropLast
    else
      Utf8.decode text

def statusText (statusCode : Nat) : Bytes :=
  match statusCode with
  | 200 => ascii "OK"
  | 404 => ascii "Not Found"
  | 405 => ascii "Method Not Allowed"
  | _ => ascii "Unknown"

def HttpResponse.bytes (resp : HttpResponse) : Bytes :=
  ascii "HTTP/1.1 " ++ decimal resp.statusCode ++ ascii " " ++ statusText resp.statusCode
    ++ ascii "\r\nContent-Type: " ++ Utf8.encode resp.contentType
    ++ ascii "\r\nContent-Length: " ++ decimal (Utf8.encode resp.body).length
    ++ ascii "\r\nConnection: close\r\n\r\n" ++ Utf8.encode resp.body

-- One connection of the server; `uptimeSecs` is the time since it started.
def Dashboard.serve (dash : Dashboard) (uptimeSecs : UInt64) (request : Bytes)
    : Option Bytes × Dashboard :=
  let dash := dash.updateHealth { dash.health with uptimeSecs }
  match firstLine request with
  | none => (none, dash)
  | some line =>
    match parseRequestLine line with
    | none => (none, dash)
    | some (method, path) => (some (dash.handleRequest method path).bytes, dash)

end Velocitas
