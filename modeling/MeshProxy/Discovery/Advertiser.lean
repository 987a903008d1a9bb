/-
The mDNS advertisement (`internal/discovery/advertiser.go`: buildTXTRecords, mdnsHostname, interfaceIPs, startServer, Run,
ServerCount, shutdownLocked).

Run starts one server for each configured interface, or a single one without an interface, and holds a.mu meanwhile; when
one cannot be started it shuts down those it has started. Otherwise it waits until the context is cancelled and then shuts
down all of them. ServerCount may be called at any moment, and waits while a.mu is held.

What the network, the operating system and the mdns package answer is an `Answers`, any for each server; the texts of their
errors are as they come. `started` and `stopped` list the servers that NewServer returned and those on which Shutdown was
called. Log lines are left out, and so is the parsing of the port.

- `qualify_qualify`, `startServer_wellFormed`: what is announced;
- `run_advertises`: in every run all servers or none are seen, and none is left running.
Premise: `quote` stands for the `%q` verb of fmt.
-/
import MeshProxy.Core.Trace
import Mathlib.Data.List.DropRight

namespace MeshProxy.Discovery

open MeshProxy.Trace

/-! ## A server -/

/-- `config.MDNSConfig`, what the advertiser reads of it -/
structure MDNSConfig where
  «instance» : String
  hostname : String
  shortName : String
  id : String
  interfaces : List String

/-- an address of an interface; it has an IP if it is a `net.IPNet` or a `net.IPAddr` -/
inductive Addr where
  | ip (text : String) (isLoopback isLinkLocalUnicast : Bool)
  | other
deriving DecidableEq, Repr

def Addr.usable : Addr → Bool
  | .ip _ isLoopback isLinkLocalUnicast => !isLoopback && !isLinkLocalUnicast
  | .other => false

/-- what is outside answers while one server is started -/
structure Answers where
  interfaceByName : Except String Unit
  addrs : Except String (List Addr)
  osHostname : Except String String
  newMDNSService : Except String Unit
  newServer : Except String Unit

/-- a running server: its interface (nil for the default) and what it announces -/
structure Server where
  iface : Option String
  «instance» : String
  hostName : String
  port : ℕ
  ips : List Addr
  txt : List String
deriving DecidableEq, Repr

/-- `fmt.Errorf(text + ": %w", err)` -/
def wrap {α : Type} (text : String) : Except String α → Except String α
  | .ok x => .ok x
  | .error err => .error (text ++ ": " ++ err)

def buildTXTRecords (cfg : MDNSConfig) : List String :=
  (if cfg.shortName ≠ "" then ["shortname=" ++ cfg.shortName] else []) ++
  (if cfg.id ≠ "" then ["id=" ++ cfg.id] else []) ++
  ["pio_env=proxy"]

/-- without trailing dots, with `.local` and one dot -/
def qualify (h : String) : String :=
  let h := h.toList.rdropWhile (· = '.')
  let h := if ".local".toList <:+ h then h else h ++ ".local".toList
  String.ofList (h ++ ['.'])

def mdnsHostname (cfg : MDNSConfig) (osHostname : Except String String) : Except String String :=
  if cfg.hostname = "" then (wrap "determining hostname" osHostname).map qualify else .ok (qualify cfg.hostname)

def interfaceIPs (name : String) (addrs : Except String (List Addr)) : Except String (List Addr) := do
  let addrs ← wrap ("listing addresses for " ++ name) addrs
  let ips := addrs.filter Addr.usable
  if ips.length = 0 then .error ("no usable IP addresses on interface " ++ name) else .ok ips

def startServer (cfg : MDNSConfig) (port : ℕ) (iface : Option String) (o : Answers) : Except String Server := do
  let ips ← iface.elim (.ok []) (interfaceIPs · o.addrs)
  let ifaceName := iface.getD "default"
  let hostName ← wrap "resolving mDNS hostname" (mdnsHostname cfg o.osHostname)
  wrap ("creating mDNS service for " ++ ifaceName) o.newMDNSService
  wrap ("starting mDNS server on " ++ ifaceName) o.newServer
  .ok { iface, «instance» := cfg.«instance», hostName, port, ips, txt := buildTXTRecords cfg }

/-! ## Run -/

/-- where Run is -/
inductive Pc where
  | idle
  /-- in the loop, with the interfaces that are left -/
  | starting (rest : List (Option String))
  | waiting
  /-- in shutdownLocked, with the servers that are left, and then Run returns this -/
  | stopping (rest : List Server) (result : Except String Unit)
  | returned (result : Except String Unit)

structure St where
  pc : Pc
  /-- a.mu is held -/
  locked : Bool
  ctxDone : Bool
  servers : List Server
  started : List Server
  stopped : List Server
  /-- what ServerCount has returned -/
  counts : List ℕ

def init : St := ⟨.idle, false, false, [], [], [], []⟩

inductive Act where
  | run
  /-- the next server, or the end of the loop -/
  | start (o : Answers)
  | cancel
  | wake
  /-- the next Shutdown, or the end of shutdownLocked; the error of a Shutdown is logged -/
  | shutdown
  | serverCount

section Machine

variable (quote : String → String) (cfg : MDNSConfig) (port : ℕ)

/-- the servers to start: nil for the default interface -/
def ifaces : List (Option String) := if cfg.interfaces.length = 0 then [none] else cfg.interfaces.map some

/-- InterfaceByName, for a configured interface, and startServer -/
def launch (iface : Option String) (o : Answers) : Except String Server := do
  iface.elim (.ok ()) fun name => wrap ("looking up interface " ++ quote name) o.interfaceByName
  startServer cfg port iface o

def step (s : St) : Act → St
  | .run =>
    match s.pc with
    | .idle => { s with pc := .starting (ifaces cfg), locked := true }
    | _ => s
  | .start o =>
    match s.pc with
    | .starting [] => { s with pc := .waiting, locked := false }
    | .starting (iface :: rest) =>
      match launch quote cfg port iface o with
      | .ok server => { s with pc := .starting rest, servers := s.servers ++ [server], started := s.started ++ [server] }
      | .error err => { s with pc := .stopping s.servers (.error err) }
    | _ => s
  | .cancel => { s with ctxDone := true }
  | .wake =>
    match s.pc with
    | .waiting => if s.ctxDone then { s with pc := .stopping s.servers (.ok ()), locked := true } else s
    | _ => s
  | .shutdown =>
    match s.pc with
    | .stopping (server :: rest) result => { s with pc := .stopping rest result, stopped := s.stopped ++ [server] }
    | .stopping [] result => { s with pc := .returned result, locked := false, servers := [] }
    | _ => s
  | .serverCount => if s.locked then s else { s with counts := s.counts ++ [s.servers.length] }

end Machine

/-! ## What is announced -/

/-- the host name is qualified, once -/
theorem qualify_suffix (h : String) : ".local.".toList <:+ (qualify h).toList := by
  have hsplit : ".local.".toList = ".local".toList ++ ['.'] := by decide
  simp only [qualify, String.toList_ofList, hsplit]
  split_ifs with hlocal
  · exact (List.suffix_append_inj_of_length_eq rfl).2 ⟨hlocal, rfl⟩
  · exact (List.suffix_append_inj_of_length_eq rfl).2 ⟨List.suffix_append _ _, rfl⟩

/-- a name that is qualified already stays as it is -/
theorem qualify_qualify (h : String) : qualify (qualify h) = qualify h := by
  obtain ⟨name, hname⟩ := qualify_suffix h
  have hlocal : (qualify h).toList = (name ++ ".local".toList) ++ ['.'] := by
    rw [← hname, List.append_assoc]
    rfl
  have hdot : (qualify h).toList.rdropWhile (· = '.') = name ++ ".local".toList := by
    rw [hlocal, List.rdropWhile_concat_pos _ _ _ (by decide), show ".local".toList = ".loca".toList ++ ['l'] from by decide,
      ← List.append_assoc, List.rdropWhile_concat_neg _ _ _ (by decide)]
  calc qualify (qualify h)
      = String.ofList ((name ++ ".local".toList) ++ ['.']) := by
        rw [qualify, hdot]
        simp only [List.suffix_append, if_true]
    _ = qualify h := by rw [← hlocal, String.ofList_toList]

/-- what a server announces -/
structure WellFormed (s : Server) : Prop where
  hostName : ".local.".toList <:+ s.hostName.toList
  stable : qualify s.hostName = s.hostName
  ips : s.iface ≠ none → s.ips ≠ []
  usable : ∀ a ∈ s.ips, a.usable = true
  txt : "pio_env=proxy" ∈ s.txt

theorem wrap_ok {α : Type} {text : String} {r : Except String α} {x : α} (h : wrap text r = .ok x) : r = .ok x := by
  cases r with
  | ok y => exact h
  | error err => cases h

theorem bind_ok {α β : Type} {r : Except String α} {f : α → Except String β} {y : β} (h : r >>= f = .ok y) :
    ∃ x, r = .ok x ∧ f x = .ok y := by
  cases r with
  | ok x => exact ⟨x, rfl, h⟩
  | error err => cases h

section Servers

variable {quote : String → String} {cfg : MDNSConfig} {port : ℕ} {iface : Option String} {o : Answers} {server : Server}

theorem mdnsHostname_qualified {os : Except String String} {h : String} (hos : mdnsHostname cfg os = .ok h) :
    ∃ name, h = qualify name := by
  unfold mdnsHostname at hos
  split_ifs at hos
  · cases hw : wrap "determining hostname" os with
    | ok name =>
      rw [hw] at hos
      cases hos
      exact ⟨name, rfl⟩
    | error err =>
      rw [hw] at hos
      cases hos
  · cases hos
    exact ⟨_, rfl⟩

theorem interfaceIPs_usable {name : String} {addrs : Except String (List Addr)} {ips : List Addr}
    (h : interfaceIPs name addrs = .ok ips) : ips ≠ [] ∧ ∀ a ∈ ips, a.usable = true := by
  obtain ⟨all, -, hips⟩ := bind_ok h
  simp only at hips
  split_ifs at hips with hnone
  cases hips
  exact ⟨fun hnil => hnone (by rw [hnil]; rfl), fun a ha => (List.mem_filter.1 ha).2⟩

theorem startServer_wellFormed (h : startServer cfg port iface o = .ok server) :
    server.iface = iface ∧ WellFormed server := by
  unfold startServer at h
  obtain ⟨ips, hips, h⟩ := bind_ok h
  obtain ⟨hostName, hhost, h⟩ := bind_ok h
  obtain ⟨-, -, h⟩ := bind_ok h
  obtain ⟨-, -, h⟩ := bind_ok h
  cases h
  obtain ⟨name, rfl⟩ := mdnsHostname_qualified (wrap_ok hhost)
  have husable : (iface ≠ none → ips ≠ []) ∧ ∀ a ∈ ips, a.usable = true := by
    cases iface with
    | none =>
      cases hips
      exact ⟨fun hne => absurd rfl hne, fun a ha => absurd ha List.not_mem_nil⟩
    | some name =>
      obtain ⟨hne, hall⟩ := interfaceIPs_usable hips
      exact ⟨fun _ => hne, hall⟩
  exact ⟨rfl, qualify_suffix name, qualify_qualify name, husable.1, husable.2, by simp [buildTXTRecords]⟩

theorem launch_wellFormed (h : launch quote cfg port iface o = .ok server) : server.iface = iface ∧ WellFormed server := by
  unfold launch at h
  obtain ⟨-, -, h⟩ := bind_ok h
  exact startServer_wellFormed h

end Servers

/-! ## A run -/

section Runs

variable (quote : String → String) (cfg : MDNSConfig) (port : ℕ)

/-- what Run has done where it is -/
def Done (s : St) : Prop :=
  match s.pc with
  | .idle => s.locked = false ∧ s.servers = [] ∧ s.started = [] ∧ s.stopped = []
  | .starting rest =>
    s.locked = true ∧ s.servers = s.started ∧ s.stopped = [] ∧ s.started.map (·.iface) ++ rest = ifaces cfg
  | .waiting => s.locked = false ∧ s.servers = s.started ∧ s.stopped = [] ∧ s.started.map (·.iface) = ifaces cfg
  | .stopping rest result => s.locked = true ∧ s.stopped ++ rest = s.started ∧
      (result = .ok () → s.ctxDone = true ∧ s.started.map (·.iface) = ifaces cfg)
  | .returned result => s.locked = false ∧ s.servers = [] ∧ s.stopped = s.started ∧
      (result = .ok () → s.ctxDone = true ∧ s.started.map (·.iface) = ifaces cfg)

structure Inv (s : St) : Prop where
  started : ∀ server ∈ s.started, WellFormed server
  counts : ∀ c ∈ s.counts, c = 0 ∨ c = (ifaces cfg).length
  done : Done cfg s

variable {cfg} {s : St}

/-- where a.mu is free, there are no servers or all of them -/
theorem Done.count (h : Done cfg s) (hfree : s.locked = false) :
    s.servers.length = 0 ∨ s.servers.length = (ifaces cfg).length := by
  unfold Done at h
  cases hpc : s.pc with
  | idle =>
    rw [hpc] at h
    exact .inl (by rw [h.2.1]; rfl)
  | starting rest =>
    rw [hpc] at h
    exact absurd (h.1.symm.trans hfree) (by decide)
  | waiting =>
    rw [hpc] at h
    exact .inr (by rw [h.2.1, ← h.2.2.2, List.length_map])
  | stopping rest result =>
    rw [hpc] at h
    exact absurd (h.1.symm.trans hfree) (by decide)
  | returned result =>
    rw [hpc] at h
    exact .inl (by rw [h.2.1]; rfl)

/-- a server more, the end of the loop, or the way back -/
theorem start_inv (h : Inv cfg s) (o : Answers) : Inv cfg (step quote cfg port s (.start o)) := by
  have hdone := h.done
  unfold Done at hdone
  simp only [step]
  cases hpc : s.pc with
  | starting rest =>
    rw [hpc] at hdone
    obtain ⟨hlocked, hservers, hstopped, hrest⟩ := hdone
    cases rest with
    | nil => exact ⟨h.started, h.counts, rfl, hservers, hstopped, by simpa using hrest⟩
    | cons iface rest =>
      cases hlaunch : launch quote cfg port iface o with
      | ok server =>
        obtain ⟨hiface, hwell⟩ := launch_wellFormed hlaunch
        simp only [hlaunch]
        refine ⟨?_, h.counts, hlocked, by rw [hservers], hstopped, by simpa [hiface] using hrest⟩
        intro sv hsv
        rcases List.mem_append.1 hsv with hsv | hsv
        · exact h.started sv hsv
        · rwa [List.mem_singleton.1 hsv]
      | error err =>
        simp only [hlaunch]
        refine ⟨h.started, h.counts, hlocked, ?_, fun herr => by cases herr⟩
        rw [hstopped, hservers, List.nil_append]
  | _ => exact h

theorem wake_inv (h : Inv cfg s) : Inv cfg (step quote cfg port s .wake) := by
  have hdone := h.done
  unfold Done at hdone
  simp only [step]
  cases hpc : s.pc with
  | waiting =>
    rw [hpc] at hdone
    obtain ⟨-, hservers, hstopped, hall⟩ := hdone
    simp only
    split_ifs with hctx
    · refine ⟨h.started, h.counts, rfl, ?_, fun _ => ⟨hctx, hall⟩⟩
      rw [hstopped, hservers, List.nil_append]
    · exact h
  | _ => exact h

/-- a Shutdown takes the next server from those that are left -/
theorem shutdown_inv (h : Inv cfg s) : Inv cfg (step quote cfg port s .shutdown) := by
  have hdone := h.done
  unfold Done at hdone
  simp only [step]
  cases hpc : s.pc with
  | stopping rest result =>
    rw [hpc] at hdone
    obtain ⟨hlocked, hsplit, hresult⟩ := hdone
    cases rest with
    | nil => exact ⟨h.started, h.counts, rfl, rfl, by simpa using hsplit, hresult⟩
    | cons server rest => exact ⟨h.started, h.counts, hlocked, by simpa using hsplit, hresult⟩
  | _ => exact h

theorem step_inv (h : Inv cfg s) (a : Act) : Inv cfg (step quote cfg port s a) := by
  cases a with
  | start o => exact start_inv quote port h o
  | wake => exact wake_inv quote port h
  | shutdown => exact shutdown_inv quote port h
  | run =>
    have hdone := h.done
    unfold Done at hdone
    simp only [step]
    cases hpc : s.pc with
    | idle =>
      rw [hpc] at hdone
      obtain ⟨-, hservers, hnone, hstopped⟩ := hdone
      exact ⟨h.started, h.counts, rfl, by rw [hservers, hnone], hstopped, by rw [hnone]; rfl⟩
    | _ => exact h
  | cancel =>
    have hdone := h.done
    refine ⟨h.started, h.counts, ?_⟩
    unfold Done at hdone ⊢
    simp only [step]
    cases hpc : s.pc <;> simp_all
  | serverCount =>
    simp only [step]
    split_ifs with hlocked
    · exact h
    · refine ⟨h.started, fun c hc => ?_, h.done⟩
      rcases List.mem_append.1 hc with hc | hc
      · exact h.counts c hc
      · rw [List.mem_singleton.1 hc]
        exact h.done.count (by simpa using hlocked)

theorem init_inv (cfg : MDNSConfig) : Inv cfg init where
  started := fun _ hserver => absurd hserver List.not_mem_nil
  counts := fun _ hc => absurd hc List.not_mem_nil
  done := ⟨rfl, rfl, rfl, rfl⟩

/-- **Run and ServerCount.** In every run, whatever fails and whenever the context is cancelled:
- each server that was started announces a qualified host name, which qualifying again would not change, and on a
  configured interface at least one address, none of them loopback or link-local;
- ServerCount has only ever returned 0 or the number of all servers;
- where Run waits there is one server for each configured interface in order, or the one without an interface, and none
  has been shut down;
- no server is shut down twice or without being started, and when Run returns each has been shut down once, in order; it
  returns without an error only when all had been started and the context is cancelled. -/
theorem run_advertises (cfg : MDNSConfig) (as : List Act) :
    let s := run (step quote cfg port) init as
    (∀ server ∈ s.started, WellFormed server) ∧
    (∀ c ∈ s.counts, c = 0 ∨ c = (ifaces cfg).length) ∧
    s.stopped <+: s.started ∧
    match s.pc with
    | .waiting => s.servers.map (·.iface) = ifaces cfg ∧ s.servers = s.started ∧ s.stopped = []
    | .returned result => s.servers = [] ∧ s.stopped = s.started ∧
        (result = .ok () → s.ctxDone = true ∧ s.started.map (·.iface) = ifaces cfg)
    | _ => True := by
  intro s
  obtain ⟨hstarted, hcounts, hdone⟩ : Inv cfg s :=
    run_inv_all (I := Inv cfg) (fun _ a hs => step_inv quote port hs a) as (init_inv cfg)
  refine ⟨hstarted, hcounts, ?_⟩
  unfold Done at hdone
  cases hpc : s.pc with
  | idle =>
    rw [hpc] at hdone
    exact ⟨by rw [hdone.2.2.2]; exact List.nil_prefix, trivial⟩
  | starting rest =>
    rw [hpc] at hdone
    exact ⟨by rw [hdone.2.2.1]; exact List.nil_prefix, trivial⟩
  | waiting =>
    rw [hpc] at hdone
    obtain ⟨-, hservers, hstopped, hall⟩ := hdone
    exact ⟨by rw [hstopped]; exact List.nil_prefix, by rw [hservers, hall], hservers, hstopped⟩
  | stopping rest result =>
    rw [hpc] at hdone
    exact ⟨⟨rest, hdone.2.1⟩, trivial⟩
  | returned result =>
    rw [hpc] at hdone
    obtain ⟨-, hservers, hstopped, hresult⟩ := hdone
    exact ⟨by rw [hstopped], hservers, hstopped, hresult⟩

end Runs

end MeshProxy.Discovery
