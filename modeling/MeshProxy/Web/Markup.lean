/-
The HTML the dashboard builds from a node and from a message (`internal/web/templates/static`: Mesh.esc, Mesh.nodeName,
formatHwModel, formatRole and formatUnixAge of utils.js; buildNodeRow of nodes.js; prependMessage, relayNameJS,
nodePopupHTML, npRow and formatUptime of app.js).

Each builder is the concatenation of the source, cell by cell. How a browser writes a fractional number or a time is a
parameter (`Browser`): any text without a character that HTML gives a meaning to. A coordinate that the JSON object does
not have makes `toFixed` throw, so the builders that show coordinates may have no result.
-/
import MeshProxy.Web.Dashboard

namespace MeshProxy.Markup

open MeshProxy.Binary32 MeshProxy.Dashboard

/-! ## Texts -/

def isPlain (c : Char) : Bool := c ≠ '<' && c ≠ '>' && c ≠ '"' && c ≠ '\'' && c ≠ '&'

/-- a text that HTML reads as it stands, in content and in a quoted value -/
def Plain (s : String) : Prop := ∀ c ∈ s.toList, isPlain c = true

abbrev PlainText : Type := { s : String // Plain s }

structure Browser where
  /-- `Math.floor(Date.now() / 1000)` -/
  now : ℤ
  toFixed : F32 → ℕ → PlainText
  /-- `toFixed` of a coordinate -/
  degrees : ℤ → ℕ → PlainText
  toLocaleTimeString : String → PlainText

def escChar (c : Char) : List Char :=
  if c = '&' then "&amp;".toList
  else if c = '<' then "&lt;".toList
  else if c = '>' then "&gt;".toList
  else if c = Char.ofNat 0xA0 then "&nbsp;".toList
  else [c]

/-- `Mesh.esc`: textContent to innerHTML -/
def esc (s : String) : String := String.ofList (s.toList.flatMap escChar)

/-- `n.toString(16).padStart(width, '0')` -/
def hex (width n : ℕ) : String :=
  String.ofList (List.replicate (width - (Nat.toDigits 16 n).length) '0' ++ Nat.toDigits 16 n)

def nodeHex (n : UInt32) : String := if n = 0 then "" else "!" ++ hex 8 n.toNat

/-- the words of an enum name, capitalised -/
def capitalise : Bool → List Char → List Char
  | _, [] => []
  | true, c :: cs => c.toLower :: capitalise (c ≠ ' ') cs
  | false, c :: cs => if c.isAlphanum then c.toUpper :: capitalise true cs else c :: capitalise false cs

def underscoreToSpace (c : Char) : Char := if c = '_' then ' ' else c

def formatHwModel (m : String) : String := String.ofList (capitalise false (m.toList.map underscoreToSpace))

def formatRole (r : String) : String :=
  match r.toList with
  | [] => ""
  | c :: cs => String.ofList (c.toUpper :: cs.map fun d => underscoreToSpace d.toLower)

/-- `x > 5` on floats, by their bits -/
def above5 (x : F32) : Bool := x.gtZero && 0x40A00000 < x.bits.toNat

variable (b : Browser)

def formatUnixAge (ts : UInt32) : String :=
  if ts = 0 then ""
  else
    let diff := b.now - ts.toNat
    if diff < 0 then "just now"
    else if diff < 60 then toString diff ++ "s ago"
    else if diff < 3600 then toString (diff / 60) ++ "m ago"
    else if diff < 86400 then toString (diff / 3600) ++ "h ago"
    else toString (diff / 86400) ++ "d ago"

def formatUptime (secs : ℕ) : String :=
  if secs = 0 then ""
  else if 0 < secs / 86400 then toString (secs / 86400) ++ "d " ++ toString (secs % 86400 / 3600) ++ "h"
  else if 0 < secs % 86400 / 3600 then
    toString (secs % 86400 / 3600) ++ "h " ++ toString (secs % 3600 / 60) ++ "m"
  else toString (secs % 3600 / 60) ++ "m"

def svgTrace : String :=
  "<svg width=\"12\" height=\"12\" viewBox=\"0 0 24 24\" fill=\"none\" stroke=\"currentColor\" stroke-width=\"2\" " ++
    "stroke-linecap=\"round\" stroke-linejoin=\"round\" style=\"vertical-align:-1px;margin-right:4px;\">" ++
    "<circle cx=\"12\" cy=\"12\" r=\"10\"/><line x1=\"22\" y1=\"12\" x2=\"18\" y2=\"12\"/>" ++
    "<line x1=\"6\" y1=\"12\" x2=\"2\" y2=\"12\"/><line x1=\"12\" y1=\"6\" x2=\"12\" y2=\"2\"/>" ++
    "<line x1=\"12\" y1=\"22\" x2=\"12\" y2=\"18\"/></svg>"

def svgTraceCompact : String :=
  "<svg width=\"14\" height=\"14\" viewBox=\"0 0 24 24\" fill=\"none\" stroke=\"currentColor\" stroke-width=\"2\" " ++
    "stroke-linecap=\"round\" stroke-linejoin=\"round\">" ++
    "<circle cx=\"12\" cy=\"12\" r=\"10\"/><line x1=\"22\" y1=\"12\" x2=\"18\" y2=\"12\"/>" ++
    "<line x1=\"6\" y1=\"12\" x2=\"2\" y2=\"12\"/><line x1=\"12\" y1=\"6\" x2=\"12\" y2=\"2\"/>" ++
    "<line x1=\"12\" y1=\"22\" x2=\"12\" y2=\"18\"/></svg>"

/-- the page's traceroute state: the target of the pending one, and the target and the seconds of the cooldown -/
structure Trace where
  pendingTraceroute : Option UInt32
  traceCooldown : Option (UInt32 × ℕ)

def Trace.active (ts : Trace) : Bool := ts.pendingTraceroute.isSome || ts.traceCooldown.isSome

def Trace.tracingThis (ts : Trace) (num : UInt32) : Bool := ts.pendingTraceroute = some num

/-- the seconds left when the node is the one that cools down -/
def Trace.coolingThis (ts : Trace) (num : UInt32) : Option ℕ :=
  ts.traceCooldown.bind fun c => if c.1 = num then some c.2 else none

/-- a piece of HTML that is there under a condition -/
def onlyIf (p : Bool) (html : String) : String := if p then html else ""

/-! ## A node's name -/

/-- `nodeDir[key]` of a node that has a short name -/
def named (nodeDir : UInt32 → Option JsNode) (n : UInt32) : Option JsNode :=
  (nodeDir n).bind fun entry => if truthy entry.shortName then some entry else none

/-- `Mesh.nodeName` -/
def nodeName (nodeDir : UInt32 → Option JsNode) (n : UInt32) : String :=
  if n = 0 then ""
  else
    match named nodeDir n with
    | some entry =>
      "<span title=\"" ++ esc (nodeHex n) ++ " (" ++ esc (readField entry.longName) ++ ")\" class=\"cursor-help\">" ++
        esc (readField entry.shortName) ++ "</span>"
    | none => "<code class=\"font-mono text-xs text-gray-400\">" ++ esc (nodeHex n) ++ "</code>"

/-! ## A row of the node table -/

def dash : String := "<span class=\"text-gray-600\">&mdash;</span>"

/-- `'!' + ('00000000' + (num >>> 0).toString(16)).slice(-8)` -/
def rowHex (num : UInt32) : String :=
  let digits := "00000000".toList ++ Nat.toDigits 16 num.toNat
  "!" ++ String.ofList (digits.drop (digits.length - 8))

def nameCell (num : UInt32) (entry : JsNode) : String :=
  onlyIf (truthy entry.seenRealtime) "<span class=\"nodes-rt-dot\" title=\"Seen in real-time\"></span>" ++
    if truthy entry.shortName then
      "<span class=\"font-semibold text-gray-100\" title=\"" ++ esc (readField entry.longName) ++ "\">" ++
        esc (readField entry.shortName) ++ "</span>" ++
        onlyIf (truthy entry.longName && entry.longName ≠ entry.shortName)
          (" <span class=\"text-gray-500 text-[11px]\">" ++ esc (readField entry.longName) ++ "</span>")
    else "<code class=\"font-mono text-xs text-gray-400\">" ++ esc (rowHex num) ++ "</code>"

def badges (entry : JsNode) : String :=
  onlyIf (truthy entry.isLicensed)
    (" <span class=\"text-[9px] font-bold px-1 py-px rounded bg-amber-500/15 " ++
    "text-amber-400 border border-amber-500/30\">HAM</span>") ++
  onlyIf (truthy entry.viaMqtt)
    (" <span class=\"text-[9px] font-bold px-1 py-px rounded bg-purple-500/15 " ++
    "text-purple-400 border border-purple-500/30\">MQTT</span>") ++
  onlyIf (truthy entry.isFavorite)
    (" <span class=\"text-[9px] font-bold px-1 py-px rounded bg-pink-500/15 " ++
    "text-pink-400 border border-pink-500/30\">FAV</span>")

/-- `entry.user_id || hex` -/
def idCell (num : UInt32) (entry : JsNode) : String :=
  "<code class=\"font-mono text-[11px] text-gray-400\">" ++
    esc (if truthy entry.userID then readField entry.userID else rowHex num) ++ "</code>"

def hwCell (entry : JsNode) : String :=
  if truthy entry.hwModel then
    "<span class=\"text-gray-300\">" ++ esc (formatHwModel (readField entry.hwModel)) ++ "</span>"
  else dash

def roleCell (entry : JsNode) : String :=
  if truthy entry.role then "<span class=\"text-gray-300\">" ++ esc (formatRole (readField entry.role)) ++ "</span>"
  else dash

def lhCell (entry : JsNode) : String :=
  if truthy entry.lastHeard then
    let age := b.now - (readField entry.lastHeard).toNat
    let color := if age < 900 then "text-emerald-400" else if age < 3600 then "text-gray-300" else "text-gray-500"
    "<span class=\"" ++ color ++ " tabular-nums\">" ++ formatUnixAge b (readField entry.lastHeard) ++ "</span>"
  else dash

def hopsCell (entry : JsNode) : String :=
  if truthy entry.hopsAway then
    "<code class=\"font-mono text-xs text-gray-300\">" ++ toString (readField entry.hopsAway).toNat ++ "</code>"
  else dash

def rssiCell (entry : JsNode) : String :=
  if truthy entry.rxRssi then
    let rssi := readField entry.rxRssi
    let color := if -90 < rssi then "text-emerald-400" else if -110 < rssi then "text-amber-400" else "text-red-400"
    "<code class=\"font-mono text-xs " ++ color ++ "\">" ++ toString rssi ++ "</code>"
  else dash

/-- `entry.rx_snr || entry.snr` -/
def snrVal (entry : JsNode) : Option F32 := if truthy entry.rxSnr then entry.rxSnr else entry.snr

def snrCell (entry : JsNode) : String :=
  if truthy (snrVal entry) then
    let snr := readField (snrVal entry)
    let color := if above5 snr then "text-emerald-400" else if snr.gtZero then "text-amber-400" else "text-red-400"
    "<code class=\"font-mono text-xs " ++ color ++ "\">" ++ (b.toFixed snr 1).1 ++ "</code>"
  else dash

/-- the level in percent, and the colour of its bar -/
def battery (entry : JsNode) : ℕ × String :=
  let pct := min (readField entry.batteryLevel).toNat 100
  (pct, if 50 < pct then "#34d399" else if 20 < pct then "#fbbf24" else "#f87171")

def battCell (entry : JsNode) : String :=
  if truthy entry.batteryLevel then
    "<span class=\"nodes-battery-bar\"><span class=\"nodes-battery-fill\" style=\"width:" ++
      toString (battery entry).1 ++ "%;background:" ++ (battery entry).2 ++ "\"></span></span>" ++
      "<span class=\"text-xs tabular-nums text-gray-300\">" ++ toString (battery entry).1 ++ "%</span>" ++
      onlyIf (truthy entry.voltage)
        (" <span class=\"text-[10px] text-gray-500\">" ++ (b.toFixed (readField entry.voltage) 1).1 ++ "V</span>")
  else dash

def coordCell (entry : JsNode) : Option String :=
  if truthy entry.latitude || truthy entry.longitude then do
    let latitude ← entry.latitude
    let longitude ← entry.longitude
    some ("<code class=\"font-mono text-[11px] text-gray-300\">" ++ (b.degrees latitude 5).1 ++ ", " ++
      (b.degrees longitude 5).1 ++ "</code>" ++
      onlyIf (truthy entry.altitude)
        (" <span class=\"text-[10px] text-gray-500\">" ++ toString (readField entry.altitude) ++ "m</span>"))
  else some dash

def actionsCell (ts : Trace) (num : UInt32) : String :=
  let numStr := toString num.toNat
  let traceBtnContent :=
    match ts.coolingThis num with
    | some remaining => toString remaining ++ "s"
    | none => if ts.tracingThis num then "<span class=\"spinner\"></span>" else svgTraceCompact
  "<div style=\"position:relative;display:flex;align-items:center;gap:2px;\">" ++
    "<button class=\"na-trace-btn\" data-trace-target=\"" ++ numStr ++ "\"" ++ onlyIf ts.active " disabled" ++
    " onclick=\"event.stopPropagation();startTraceroute(" ++ numStr ++ ")\" title=\"Trace Route\">" ++
    traceBtnContent ++ "</button>" ++
    "<button class=\"na-btn\" onclick=\"event.stopPropagation();toggleNodeActions('" ++ numStr ++
    "',this)\" title=\"Actions\">&#8942;</button></div>"

/-- `buildNodeRow` -/
def buildNodeRow (ts : Trace) (num : UInt32) (entry : JsNode) : Option String := do
  let coords ← coordCell b entry
  some ("<tr class=\"hover:bg-gray-800/30 transition-colors\" data-nodenum=\"" ++ toString num.toNat ++ "\">" ++
    "<td class=\"nodes-td\">" ++ nameCell num entry ++ badges entry ++ "</td>" ++
    "<td class=\"nodes-td\">" ++ idCell num entry ++ "</td>" ++
    "<td class=\"nodes-td hidden sm:table-cell\">" ++ hwCell entry ++ "</td>" ++
    "<td class=\"nodes-td hidden sm:table-cell\">" ++ roleCell entry ++ "</td>" ++
    "<td class=\"nodes-td\">" ++ lhCell b entry ++ "</td>" ++
    "<td class=\"nodes-td text-center hidden sm:table-cell\">" ++ hopsCell entry ++ "</td>" ++
    "<td class=\"nodes-td text-right\">" ++ rssiCell entry ++ "</td>" ++
    "<td class=\"nodes-td text-right hidden sm:table-cell\">" ++ snrCell b entry ++ "</td>" ++
    "<td class=\"nodes-td hidden sm:table-cell\">" ++ battCell b entry ++ "</td>" ++
    "<td class=\"nodes-td hidden sm:table-cell\">" ++ coords ++ "</td>" ++
    "<td class=\"nodes-td\">" ++ actionsCell ts num ++ "</td></tr>")

/-! ## A node's popup on the map -/

/-- `npRow` -/
def npRow (label value : String) : String :=
  "<div class=\"np-row\"><span class=\"np-label\">" ++ label ++ "</span><span class=\"np-value\">" ++ value ++
    "</span></div>"

def popupHeader (num : UInt32) (entry : JsNode) : String :=
  "<div class=\"np-header\">" ++
  onlyIf (truthy entry.shortName) ("<span class=\"np-name\">" ++ esc (readField entry.shortName) ++ "</span>") ++
  "<span class=\"np-hex\">" ++ esc ("!" ++ hex 8 num.toNat) ++ "</span>" ++
  onlyIf (truthy entry.isLicensed) " <span class=\"np-badge np-badge-ham\">HAM</span>" ++
  onlyIf (truthy entry.viaMqtt) " <span class=\"np-badge np-badge-mqtt\">MQTT</span>" ++
  onlyIf (truthy entry.isFavorite) " <span class=\"np-badge np-badge-fav\">FAV</span>" ++ "</div>" ++
  onlyIf (truthy entry.longName)
    ("<div style=\"font-size:12px;color:#9ca3af;margin-bottom:2px;\">" ++ esc (readField entry.longName) ++ "</div>")

def identitySection (entry : JsNode) : String :=
  onlyIf (truthy entry.hwModel || truthy entry.role || truthy entry.userID)
    ("<div class=\"np-section\"><div class=\"np-section-title\">Identity</div>" ++
      onlyIf (truthy entry.userID) (npRow "ID" (readField entry.userID)) ++
      onlyIf (truthy entry.hwModel) (npRow "Hardware" (formatHwModel (readField entry.hwModel))) ++
      onlyIf (truthy entry.role) (npRow "Role" (formatRole (readField entry.role))) ++ "</div>")

def radioSection (entry : JsNode) : String :=
  onlyIf (truthy entry.snr || truthy entry.rxRssi || truthy entry.rxSnr || truthy entry.lastHeard ||
      truthy entry.hopsAway || truthy entry.channel)
    ("<div class=\"np-section\"><div class=\"np-section-title\">Radio</div>" ++
      onlyIf (truthy entry.rxRssi) (npRow "RSSI" (toString (readField entry.rxRssi) ++ " dBm")) ++
      onlyIf (truthy entry.rxSnr) (npRow "SNR (live)" ((b.toFixed (readField entry.rxSnr) 1).1 ++ " dB")) ++
      onlyIf (truthy entry.snr && !truthy entry.rxSnr) (npRow "SNR" ((b.toFixed (readField entry.snr) 1).1 ++ " dB")) ++
      onlyIf (truthy entry.hopsAway) (npRow "Hops" (toString (readField entry.hopsAway).toNat)) ++
      onlyIf (truthy entry.channel) (npRow "Channel" (toString (readField entry.channel).toNat)) ++
      onlyIf (truthy entry.lastHeard) (npRow "Last heard" (formatUnixAge b (readField entry.lastHeard))) ++ "</div>")

def positionSection (entry : JsNode) : Option String :=
  if truthy entry.latitude || truthy entry.longitude then do
    let latitude ← entry.latitude
    let longitude ← entry.longitude
    some ("<div class=\"np-section\"><div class=\"np-section-title\">Position</div>" ++
      npRow "Coords" ((b.degrees latitude 6).1 ++ ", " ++ (b.degrees longitude 6).1) ++
      onlyIf (truthy entry.altitude) (npRow "Altitude" (toString (readField entry.altitude) ++ " m")) ++
      onlyIf (truthy entry.groundSpeed) (npRow "Speed" (toString (readField entry.groundSpeed).toNat ++ " m/s")) ++
      onlyIf (truthy entry.groundTrack) (npRow "Heading" (toString (readField entry.groundTrack).toNat ++ "&deg;")) ++
      onlyIf (truthy entry.satsInView) (npRow "Satellites" (toString (readField entry.satsInView).toNat)) ++
      onlyIf (truthy entry.positionTime) (npRow "Fix age" (formatUnixAge b (readField entry.positionTime))) ++ "</div>")
  else some ""

def deviceSection (entry : JsNode) : String :=
  onlyIf (truthy entry.batteryLevel || truthy entry.voltage || truthy entry.uptimeSeconds ||
      truthy entry.channelUtilization || truthy entry.airUtilTx)
    ("<div class=\"np-section\"><div class=\"np-section-title\">Device</div>" ++
      onlyIf (truthy entry.batteryLevel)
        ("<div class=\"np-row\"><span class=\"np-label\">Battery</span>" ++
          "<span class=\"np-value\"><span class=\"np-bar\"><span class=\"np-bar-fill\" style=\"width:" ++
          toString (battery entry).1 ++ "%;background:" ++ (battery entry).2 ++ "\"></span></span>" ++
          toString (battery entry).1 ++ "%</span></div>") ++
      onlyIf (truthy entry.voltage) (npRow "Voltage" ((b.toFixed (readField entry.voltage) 2).1 ++ " V")) ++
      onlyIf (truthy entry.uptimeSeconds) (npRow "Uptime" (formatUptime (readField entry.uptimeSeconds).toNat)) ++
      onlyIf (truthy entry.channelUtilization)
        (npRow "Ch. util" ((b.toFixed (readField entry.channelUtilization) 1).1 ++ "%")) ++
      onlyIf (truthy entry.airUtilTx) (npRow "Air TX" ((b.toFixed (readField entry.airUtilTx) 1).1 ++ "%")) ++ "</div>")

def environmentSection (entry : JsNode) : String :=
  onlyIf (truthy entry.temperature || truthy entry.relativeHumidity || truthy entry.barometricPressure)
    ("<div class=\"np-section\"><div class=\"np-section-title\">Environment</div>" ++
      onlyIf (truthy entry.temperature) (npRow "Temp" ((b.toFixed (readField entry.temperature) 1).1 ++ " &deg;C")) ++
      onlyIf (truthy entry.relativeHumidity)
        (npRow "Humidity" ((b.toFixed (readField entry.relativeHumidity) 1).1 ++ "%")) ++
      onlyIf (truthy entry.barometricPressure)
        (npRow "Pressure" ((b.toFixed (readField entry.barometricPressure) 1).1 ++ " hPa")) ++ "</div>")

def traceSection (ts : Trace) (num : UInt32) : String :=
  let nodeNum := toString num.toNat
  "<div class=\"np-section\" style=\"text-align:center;\">" ++
  "<button class=\"np-trace-btn\" data-trace-target=\"" ++ nodeNum ++ "\"" ++ onlyIf ts.active " disabled" ++
  " onclick=\"startTraceroute(" ++ nodeNum ++ ")\">" ++
  (match ts.coolingThis num with
    | some remaining => toString remaining ++ "s"
    | none =>
      if ts.tracingThis num then svgTrace ++ "Tracing…<span class=\"spinner\"></span>"
      else if ts.active then svgTrace ++ "Trace busy"
      else svgTrace ++ "Trace Route") ++
  "</button></div>"

/-- `nodePopupHTML` -/
def nodePopupHTML (ts : Trace) (num : UInt32) (entry : JsNode) : Option String := do
  let position ← positionSection b entry
  some ("<div class=\"np\">" ++ popupHeader num entry ++ identitySection entry ++ radioSection b entry ++ position ++
    deviceSection b entry ++ environmentSection b entry ++ traceSection ts num ++ "</div>")

/-! ## A row of the message table -/

/-- a message record, as JSON -/
structure JsMessage where
  timestamp : String
  direction : String
  type : String
  portNum : String
  from_ : UInt32
  to_ : UInt32
  hopLimit : UInt32
  hopStart : UInt32
  rxRssi : ℤ
  rxSnr : F32
  viaMqtt : Bool
  relayNode : UInt32
  size : ℕ
  payload : String

def relayNameJS (relayNode : UInt32) : String :=
  if relayNode = 0 then ""
  else "<span class=\"font-mono text-xs text-cyan-400\">!" ++ hex 2 (relayNode.toNat % 256) ++ "</span>"

def dirTag (msg : JsMessage) : String :=
  if msg.direction = "from_node" then
    "<span class=\"inline-block text-[10px] font-bold px-2 py-0.5 rounded bg-blue-500/15 text-blue-400 border " ++
      "border-blue-500/30 font-mono uppercase\">IN</span>"
  else
    "<span class=\"inline-block text-[10px] font-bold px-2 py-0.5 rounded bg-amber-500/15 text-amber-400 border " ++
      "border-amber-500/30 font-mono uppercase\">OUT</span>"

def relayBadges (msg : JsMessage) : String :=
  let badges :=
    onlyIf msg.viaMqtt
      ("<span class=\"inline-block text-[10px] font-bold px-1.5 py-0.5 rounded bg-purple-500/15 text-purple-400 border " ++
        "border-purple-500/30 font-mono\">MQTT</span> ") ++
      relayNameJS msg.relayNode
  if msg.viaMqtt || msg.relayNode ≠ 0 then badges else dash

/-- a cell of the message table -/
def td (pre post html : String) : String :=
  "\n            <td class=\"" ++ pre ++ "px-3 py-1.5 border-b border-gray-800/50 " ++ post ++ "\">" ++ html ++ "</td>"

def code (text : String) : String := "<code class=\"font-mono text-xs\">" ++ text ++ "</code>"

/-- the last cell, with the payload in its title and in its text -/
def payloadCell (payload : String) : String :=
  "\n            <td class=\"px-3 py-1.5 border-b border-gray-800/50 max-w-xs truncate\" title=\"" ++ esc payload ++
    "\">" ++ "<span class=\"text-xs text-gray-300\">" ++ esc payload ++ "</span></td>\n        "

/-- the row `prependMessage` puts into the table -/
def messageRow (nodeDir : UInt32 → Option JsNode) (msg : JsMessage) : String :=
  let timeStr := (b.toLocaleTimeString msg.timestamp).1
  let hopsStr :=
    if msg.hopLimit ≠ 0 ∨ msg.hopStart ≠ 0 then toString msg.hopLimit.toNat ++ "/" ++ toString msg.hopStart.toNat
    else "&mdash;"
  let rssiStr := if msg.rxRssi ≠ 0 then toString msg.rxRssi else "&mdash;"
  let snrStr := if msg.rxSnr.isZero then "&mdash;" else (b.toFixed msg.rxSnr 1).1
  td "" "whitespace-nowrap" (code timeStr) ++
  td "" "whitespace-nowrap" (dirTag msg) ++
  td "" "whitespace-nowrap" (code (esc msg.type)) ++
  td "hidden sm:table-cell " "whitespace-nowrap"
    ("<code class=\"font-mono text-xs text-gray-400\">" ++ esc msg.portNum ++ "</code>") ++
  td "" "whitespace-nowrap" (nodeName nodeDir msg.from_) ++
  td "" "whitespace-nowrap" (nodeName nodeDir msg.to_) ++
  td "hidden sm:table-cell " "whitespace-nowrap" (code hopsStr) ++
  td "" "text-right tabular-nums whitespace-nowrap" (code rssiStr) ++
  td "" "text-right tabular-nums whitespace-nowrap" (code snrStr) ++
  td "hidden sm:table-cell " "whitespace-nowrap" (relayBadges msg) ++
  td "hidden sm:table-cell " "text-right tabular-nums whitespace-nowrap" (toString msg.size ++ "B") ++
  payloadCell msg.payload

end MeshProxy.Markup
