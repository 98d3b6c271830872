import VelocitasFix.Dashboard.Impl
import VelocitasFix.Data.Json

/-!
This module contains the proof that the JSON texts of the dashboard, which it writes by hand, are read
as the sessions and as the health that they are written from, whatever characters these contain.
-/

namespace Velocitas

theorem hexDigit_digitChar {n : Nat} (h : n < 16) : Json.hexDigit n.digitChar = some n := by
  have hall : ∀ n : Fin 16, Json.hexDigit n.val.digitChar = some n.val := by decide
  exact hall ⟨n, h⟩

theorem codePoint_hex4 {n : Nat} (h : n < 0x20) (rest : List Char)
    : Json.codePoint (hex4 n ++ rest) = some (Char.ofNat n, rest) := by
  have hvalid : n.isValidChar := .inl (by omega)
  have hn : 4096 * (n / 4096 % 16) + 256 * (n / 256 % 16) + 16 * (n / 16 % 16) + n % 16 = n := by
    omega
  change Json.codePoint (_ :: _ :: _ :: _ :: rest) = _
  unfold Json.codePoint
  dsimp only
  rw [hexDigit_digitChar (by omega), hexDigit_digitChar (by omega), hexDigit_digitChar (by omega),
    hexDigit_digitChar (by omega)]
  simp only [Option.bind_eq_bind, Option.bind_some]
  rw [hn, if_pos hvalid]

-- Every character is read back, the control characters among them.
theorem escapes_jsonEscapeChar : Json.Escapes jsonEscapeChar := by
  intro c rest
  unfold jsonEscapeChar
  split
  . rfl
  . rfl
  . rfl
  . rfl
  . rfl
  . next hquote hbackslash _ _ _ =>
    split
    . next hcontrol =>
      change Json.codePoint (hex4 c.toNat ++ rest) = _
      rw [codePoint_hex4 hcontrol, Char.ofNat_toNat]
    . next hplain =>
      rw [List.singleton_append, Json.character, if_neg hbackslash, if_neg]
      rw [not_or]
      exact ⟨hquote, hplain⟩

-- A string and a member of an object as the dashboard writes them.
def jsonString (s : String) : List Char := '"' :: (s.toList.flatMap jsonEscapeChar ++ ['"'])

def jsonMember (name : String) (text : List Char) : List Char :=
  '"' :: (name.toList.flatMap jsonEscapeChar ++ '"' :: ':' :: text)

theorem jsonMember_eq {name : String} (h : name.toList.flatMap jsonEscapeChar = name.toList)
    (text : List Char)
    : jsonMember name text = '"' :: (name.toList ++ '"' :: ':' :: text) := by
  rw [jsonMember, h]

def SessionStatus.json (s : SessionStatus) : Json.Value :=
  .object [("session_id".toList, .string s.sessionId.toList),
    ("sender_comp_id".toList, .string s.senderCompId.toList),
    ("target_comp_id".toList, .string s.targetCompId.toList),
    ("state".toList, .string s.state.toList),
    ("outbound_seq".toList, .nat s.outboundSeq.toNat),
    ("inbound_seq".toList, .nat s.inboundSeq.toNat),
    ("messages_sent".toList, .nat s.messagesSent.toNat),
    ("messages_received".toList, .nat s.messagesReceived.toNat),
    ("last_activity_ms".toList, .nat s.lastActivityMs.toNat),
    ("uptime_secs".toList, .nat s.uptimeSecs.toNat)]

def HealthStatus.json (health : HealthStatus) : Json.Value :=
  .object [("healthy".toList, .bool health.healthy),
    ("version".toList, .string health.version.toList),
    ("uptime_secs".toList, .nat health.uptimeSecs.toNat),
    ("active_sessions".toList, .nat health.activeSessions),
    ("messages_processed".toList, .nat health.messagesProcessed.toNat),
    ("engine_state".toList, .string health.engineState.toList)]

section Rendering

variable {depth : Nat}

theorem reads_jsonString (s : String)
    : Json.Reads (Json.value (depth + 1)) (jsonString s) (.string s.toList) :=
  Json.reads_string escapes_jsonEscapeChar s.toList

theorem reads_toString (n : Nat)
    : Json.Reads (Json.value (depth + 1)) (toString n).toList (.nat n) := by
  have hdigits : (toString n).toList = Nat.toDigits 10 n := by
    change n.repr.toList = _
    rw [Nat.repr_eq_ofList_toDigits, String.toList_ofList]
  rw [hdigits]
  exact Json.reads_nat n

theorem reads_jsonMember {text : List Char} {x : Json.Value}
    (h : Json.Reads (Json.value depth) text x) (name : String)
    : Json.Reads (Json.member (Json.value depth)) (jsonMember name text) (name.toList, x) :=
  Json.reads_member escapes_jsonEscapeChar h name.toList

theorem renderJsonHealth_toList (dash : Dashboard)
    : dash.renderJsonHealth.toList
        = '\x7b' :: (Json.separated [jsonMember "healthy" (toString dash.health.healthy).toList,
            jsonMember "version" (jsonString dash.health.version),
            jsonMember "uptime_secs" (toString dash.health.uptimeSecs.toNat).toList,
            jsonMember "active_sessions" (toString dash.health.activeSessions).toList,
            jsonMember "messages_processed" (toString dash.health.messagesProcessed.toNat).toList,
            jsonMember "engine_state" (jsonString dash.health.engineState)] ++ ['\x7d']) := by
  have hhealthy := @jsonMember_eq "healthy" (by decide +kernel)
  have hversion := @jsonMember_eq "version" (by decide +kernel)
  have huptime := @jsonMember_eq "uptime_secs" (by decide +kernel)
  have hactive := @jsonMember_eq "active_sessions" (by decide +kernel)
  have hprocessed := @jsonMember_eq "messages_processed" (by decide +kernel)
  have hstate := @jsonMember_eq "engine_state" (by decide +kernel)
  rw [hhealthy, hversion, huptime, hactive, hprocessed, hstate]
  unfold Dashboard.renderJsonHealth jsonEscape jsonString Json.separated
  simp only [String.toList_append, String.toList_ofList]
  simp only [String.reduceToList]
  simp only [List.flatMap_cons, List.flatMap_nil, List.append_assoc, List.cons_append,
    List.nil_append]

set_option maxRecDepth 2048 in
theorem renderJsonSession_toList (s : SessionStatus)
    : (Dashboard.renderJsonSession s).toList
        = '\x7b' :: (Json.separated [jsonMember "session_id" (jsonString s.sessionId),
            jsonMember "sender_comp_id" (jsonString s.senderCompId),
            jsonMember "target_comp_id" (jsonString s.targetCompId),
            jsonMember "state" (jsonString s.state),
            jsonMember "outbound_seq" (toString s.outboundSeq.toNat).toList,
            jsonMember "inbound_seq" (toString s.inboundSeq.toNat).toList,
            jsonMember "messages_sent" (toString s.messagesSent.toNat).toList,
            jsonMember "messages_received" (toString s.messagesReceived.toNat).toList,
            jsonMember "last_activity_ms" (toString s.lastActivityMs.toNat).toList,
            jsonMember "uptime_secs" (toString s.uptimeSecs.toNat).toList] ++ ['\x7d']) := by
  have hid := @jsonMember_eq "session_id" (by decide +kernel)
  have hsender := @jsonMember_eq "sender_comp_id" (by decide +kernel)
  have htarget := @jsonMember_eq "target_comp_id" (by decide +kernel)
  have hstate := @jsonMember_eq "state" (by decide +kernel)
  have houtbound := @jsonMember_eq "outbound_seq" (by decide +kernel)
  have hinbound := @jsonMember_eq "inbound_seq" (by decide +kernel)
  have hsent := @jsonMember_eq "messages_sent" (by decide +kernel)
  have hreceived := @jsonMember_eq "messages_received" (by decide +kernel)
  have hactivity := @jsonMember_eq "last_activity_ms" (by decide +kernel)
  have huptime := @jsonMember_eq "uptime_secs" (by decide +kernel)
  rw [hid, hsender, htarget, hstate, houtbound, hinbound, hsent, hreceived, hactivity, huptime]
  unfold Dashboard.renderJsonSession jsonEscape jsonString Json.separated
  simp only [String.toList_append, String.toList_ofList]
  simp only [String.reduceToList]
  simp only [List.flatMap_cons, List.flatMap_nil, List.append_assoc, List.cons_append,
    List.nil_append]

theorem reads_renderJsonSession (s : SessionStatus)
    : Json.Reads (Json.value (depth + 2)) (Dashboard.renderJsonSession s).toList s.json := by
  rw [renderJsonSession_toList]
  apply Json.reads_object
  exact .cons (reads_jsonMember (reads_jsonString _) _)
    (.cons (reads_jsonMember (reads_jsonString _) _)
    (.cons (reads_jsonMember (reads_jsonString _) _)
    (.cons (reads_jsonMember (reads_jsonString _) _)
    (.cons (reads_jsonMember (reads_toString _) _)
    (.cons (reads_jsonMember (reads_toString _) _)
    (.cons (reads_jsonMember (reads_toString _) _)
    (.cons (reads_jsonMember (reads_toString _) _)
    (.cons (reads_jsonMember (reads_toString _) _)
    (.cons (reads_jsonMember (reads_toString _) _) .nil)))))))))

theorem reads_renderJsonHealth (dash : Dashboard)
    : Json.Reads (Json.value (depth + 2)) dash.renderJsonHealth.toList dash.health.json := by
  rw [renderJsonHealth_toList]
  apply Json.reads_object
  exact .cons (reads_jsonMember (Json.reads_bool _) _)
    (.cons (reads_jsonMember (reads_jsonString _) _)
    (.cons (reads_jsonMember (reads_toString _) _)
    (.cons (reads_jsonMember (reads_toString _) _)
    (.cons (reads_jsonMember (reads_toString _) _)
    (.cons (reads_jsonMember (reads_jsonString _) _) .nil)))))

-- The loop writes a comma before every session but the first.
theorem renderJsonLoop_toList (out : String) (sessions : List SessionStatus)
    : (Dashboard.renderJsonLoop out false sessions).toList
        = out.toList ++ (sessions.map fun s => (Dashboard.renderJsonSession s).toList).flatMap
            fun text => ',' :: text := by
  induction sessions generalizing out with
  | nil => exact (List.append_nil _).symm
  | cons s sessions ih =>
    rw [Dashboard.renderJsonLoop, ih, String.toList_append, if_neg Bool.false_ne_true,
      String.toList_append, List.map_cons, List.flatMap_cons]
    simp

theorem renderJsonSessions_toList (dash : Dashboard)
    : dash.renderJsonSessions.toList
        = '[' :: (Json.separated (dash.sessions.map fun s => (Dashboard.renderJsonSession s).toList)
            ++ [']']) := by
  unfold Dashboard.renderJsonSessions
  cases dash.sessions with
  | nil => rfl
  | cons s sessions =>
    rw [Dashboard.renderJsonLoop, String.toList_append, renderJsonLoop_toList, if_pos rfl,
      String.toList_append, List.map_cons, Json.separated]
    simp

theorem reads_renderJsonSessions (dash : Dashboard)
    : Json.Reads (Json.value (depth + 3)) dash.renderJsonSessions.toList
        (.array (dash.sessions.map (·.json))) := by
  rw [renderJsonSessions_toList]
  apply Json.reads_array
  rw [List.forall₂_map_left_iff, List.forall₂_map_right_iff, List.forall₂_same]
  intro s _
  exact reads_renderJsonSession s

end Rendering

end Velocitas
