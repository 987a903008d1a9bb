/-
The configuration as `Config.Validate` reads it (`internal/config/config.go`): the fields it checks, their defaults and
the checks in the order in which the code makes them. A duration is an int64 number of nanoseconds.

- `validate_ok_iff`: a configuration is accepted exactly when none of the checks fails;
- `validate_error`: the error is the text of a check that fails, and starts with the field that it checks;
- `validate_defaultConfig`: the defaults pass;
- `validate_intervals`: what an accepted configuration says about the reconnect intervals.
Premise: `quote` stands for the `%q` verb of fmt.
-/
import Mathlib.Tactic

namespace MeshProxy.Configuration

/-- `time.Duration` -/
abbrev Duration := Int64

def millisecond : Duration := 1000000

def second : Duration := 1000 * millisecond

def minute : Duration := 60 * second

structure NodeConfig where
  address : String
  reconnectInterval : Duration
  maxReconnectInterval : Duration
  dialTimeout : Duration
  readTimeout : Duration
  heartbeatInterval : Duration
  fromBuffer : Int64
  toBuffer : Int64

structure ProxyConfig where
  listen : String
  maxClients : Int64
  clientSendBuffer : Int64
  clientIdleTimeout : Duration
  iosNodeInfoDelay : Duration
  maxChatCache : Int64

structure MetricsConfig where
  maxMessages : Int64
  maxTrafficSamples : Int64

structure WebConfig where
  listen : String
  enabled : Bool

structure LoggingConfig where
  level : String
  format : String

structure TelegramConfig where
  token : String
  chatID : Int64
  channels : List Int64

structure MDNSConfig where
  enabled : Bool
  «instance» : String
  shortName : String
  interfaces : List String

structure Config where
  node : NodeConfig
  proxy : ProxyConfig
  web : WebConfig
  mdns : MDNSConfig
  telegram : TelegramConfig
  logging : LoggingConfig
  metrics : MetricsConfig

/-- `DefaultConfig` -/
def defaultConfig : Config where
  node :=
    { address := "localhost:4403", reconnectInterval := 1 * second, maxReconnectInterval := 30 * second,
      dialTimeout := 10 * second, readTimeout := 5 * minute, heartbeatInterval := 1 * minute, fromBuffer := 256,
      toBuffer := 64 }
  proxy :=
    { listen := ":4404", maxClients := 10, clientSendBuffer := 256, clientIdleTimeout := 30 * minute,
      iosNodeInfoDelay := 50 * millisecond, maxChatCache := 1000 }
  web := { listen := ":8080", enabled := true }
  mdns := { enabled := true, «instance» := "Meshtastic Proxy", shortName := "PRXY", interfaces := [] }
  telegram := { token := "", chatID := 0, channels := [] }
  logging := { level := "info", format := "text" }
  metrics := { maxMessages := 200, maxTrafficSamples := 300 }

/-- one `if` of `Validate`: the field, whether it is refused, and the rest of the error text -/
structure Check where
  field : String
  failed : Bool
  text : String

def Check.message (check : Check) : String := check.field ++ check.text

section Checks

variable (quote : String → String)

/-- the checks of `Validate`, in order -/
def checks (c : Config) : List Check :=
  [⟨"node.address", c.node.address = "", " is required"⟩,
   ⟨"proxy.listen", c.proxy.listen = "", " is required"⟩,
   ⟨"proxy.max_clients", c.proxy.maxClients < 1, " must be at least 1"⟩,
   ⟨"proxy.client_send_buffer", c.proxy.clientSendBuffer < 1, " must be at least 1"⟩,
   ⟨"proxy.client_idle_timeout", c.proxy.clientIdleTimeout < 0, " must not be negative"⟩,
   ⟨"proxy.ios_nodeinfo_delay", c.proxy.iosNodeInfoDelay < 0, " must not be negative"⟩,
   ⟨"proxy.max_chat_cache", c.proxy.maxChatCache < 0, " must not be negative"⟩,
   ⟨"node.reconnect_interval", c.node.reconnectInterval < 100 * millisecond, " must be at least 100ms"⟩,
   ⟨"node.max_reconnect_interval", c.node.maxReconnectInterval < c.node.reconnectInterval,
    " must be >= reconnect_interval"⟩,
   ⟨"node.dial_timeout", c.node.dialTimeout < 0, " must not be negative"⟩,
   ⟨"node.read_timeout", c.node.readTimeout < 0, " must not be negative"⟩,
   ⟨"node.heartbeat_interval", c.node.heartbeatInterval < 0, " must not be negative"⟩,
   ⟨"node.heartbeat_interval", 0 < c.node.heartbeatInterval ∧ 0 < c.node.readTimeout ∧
     c.node.readTimeout ≤ c.node.heartbeatInterval, " must be less than read_timeout"⟩,
   ⟨"node.from_buffer", c.node.fromBuffer < 1, " must be at least 1"⟩,
   ⟨"node.to_buffer", c.node.toBuffer < 1, " must be at least 1"⟩,
   ⟨"web.listen", c.web.enabled ∧ c.web.listen = "", " is required when web is enabled"⟩,
   ⟨"logging.level", c.logging.level ∉ ["debug", "info", "warn", "error"],
    " must be one of: debug, info, warn, error (got " ++ quote c.logging.level ++ ")"⟩,
   ⟨"logging.format", c.logging.format ∉ ["text", "json"],
    " must be one of: text, json (got " ++ quote c.logging.format ++ ")"⟩,
   ⟨"metrics.max_messages", c.metrics.maxMessages < 1, " must be at least 1"⟩,
   ⟨"metrics.max_traffic_samples", c.metrics.maxTrafficSamples < 1, " must be at least 1"⟩] ++
  (if c.mdns.enabled then
    [⟨"mdns.instance", c.mdns.«instance» = "", " is required when mdns is enabled"⟩,
     -- len of a Go string counts bytes
     ⟨"mdns.short_name", 4 < c.mdns.shortName.utf8ByteSize, " must be at most 4 characters"⟩] ++
    c.mdns.interfaces.zipIdx.map fun (iface, i) =>
      ⟨"mdns.interfaces[" ++ toString i ++ "]", iface = "", " must not be empty"⟩
  else []) ++
  ⟨"telegram.chat_id", c.telegram.token ≠ "" ∧ c.telegram.chatID = 0, " is required when telegram.token is set"⟩ ::
  c.telegram.channels.zipIdx.map fun (ch, i) =>
    ⟨"telegram.channels[" ++ toString i ++ "]", ch < 0 ∨ 7 < ch,
     ": channel index " ++ toString ch.toInt ++ " out of range (must be 0-7)"⟩

/-- `Validate` -/
def validate (c : Config) : Except String Unit :=
  match (checks quote c).find? Check.failed with
  | none => .ok ()
  | some check => .error check.message

variable {quote}

theorem validate_ok_iff {c : Config} :
    validate quote c = .ok () ↔ ∀ check ∈ checks quote c, check.failed = false := by
  unfold validate
  cases h : (checks quote c).find? Check.failed with
  | none => simpa using h
  | some check =>
    have hfailed := List.find?_some h
    refine ⟨nofun, fun hall => ?_⟩
    rw [hall check (List.mem_of_find?_eq_some h)] at hfailed
    cases hfailed

/-- the error is the text of the first check that fails -/
theorem validate_error {c : Config} {text : String} (h : validate quote c = .error text) :
    ∃ check ∈ checks quote c, check.failed = true ∧ text = check.field ++ check.text := by
  unfold validate at h
  split at h
  · cases h
  · rename_i check hfind
    cases h
    exact ⟨check, List.mem_of_find?_eq_some hfind, List.find?_some hfind, rfl⟩

/-- the defaults pass every check -/
theorem validate_defaultConfig : validate quote defaultConfig = .ok () := by
  apply validate_ok_iff.2
  simp only [checks, defaultConfig, List.zipIdx_nil, List.map_nil, List.append_nil, ↓reduceIte]
  simp only [List.forall_mem_cons, List.forall_mem_append, List.not_mem_nil, false_implies, implies_true, and_true]
  decide

/-- an accepted configuration reconnects after at least 100ms, and not later than its maximum -/
theorem validate_intervals {c : Config} (h : validate quote c = .ok ()) :
    100 * millisecond ≤ c.node.reconnectInterval ∧ c.node.reconnectInterval ≤ c.node.maxReconnectInterval := by
  have hall := validate_ok_iff.1 h
  simp only [checks, List.forall_mem_append, List.forall_mem_cons, decide_eq_false_iff_not] at hall
  obtain ⟨⟨hnode, -⟩, -⟩ := hall
  obtain ⟨-, -, -, -, -, -, -, hmin, hmax, -⟩ := hnode
  exact ⟨Int64.not_lt.1 hmin, Int64.not_lt.1 hmax⟩

end Checks

end MeshProxy.Configuration
