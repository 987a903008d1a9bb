/-
The Prometheus metrics (`internal/metrics/prometheus.go`: the descriptors, Describe, Collect).

A scrape reads the live counters one after the other while other goroutines change them, and any number of scrapes may run
at the same time. Each Load is a step of its own; the copy of the type counters and the pass over the node directory are
one step each, under their lock. The counters are int64. A metric's value is the float64 of what is read: of an integer, of
a duration, of a float32; the order of a range over a map is not modelled.

The registry turns a scrape down if two of its metrics have one name and the same label values, or a metric is not of a
described family; MustNewConstMetric panics if the number of label values is not that of the family's labels.
- `scrape_well_formed`: no scrape is ever turned down, whatever runs beside it;
- `counters_never_fall`: between a scrape and a later one no counter falls or goes away, unless an int64 overflows.
-/
import MeshProxy.Core.Trace
import MeshProxy.Metrics.Sampler
import Std.Data.String.ToNat

namespace MeshProxy.Exposition

open MeshProxy.Binary32 MeshProxy.Store MeshProxy.Trace
open MeshProxy.Sampler (wrap64)

/-! ## Families -/

/-- the descriptors -/
inductive Desc where
  | info | uptime | nodeConnected | activeClients | bytesFromNode | bytesToNode | framesFromNode | framesToNode
  | nodeReconnects | nodeConnectionErrors | configCacheFrames | configCacheAgeSeconds | configReplaysTotal
  | messagesTotal | meshNodes | nodeRssi | nodeSnr
deriving DecidableEq, Repr

/-- `prometheus.BuildFQName(namespace, …)` -/
def fqName : Desc → String
  | .info => "meshtastic_proxy_info"
  | .uptime => "meshtastic_proxy_uptime_seconds"
  | .nodeConnected => "meshtastic_proxy_node_connected"
  | .activeClients => "meshtastic_proxy_active_clients"
  | .bytesFromNode => "meshtastic_proxy_bytes_from_node_total"
  | .bytesToNode => "meshtastic_proxy_bytes_to_node_total"
  | .framesFromNode => "meshtastic_proxy_frames_from_node_total"
  | .framesToNode => "meshtastic_proxy_frames_to_node_total"
  | .nodeReconnects => "meshtastic_proxy_node_reconnects_total"
  | .nodeConnectionErrors => "meshtastic_proxy_node_connection_errors_total"
  | .configCacheFrames => "meshtastic_proxy_config_cache_frames"
  | .configCacheAgeSeconds => "meshtastic_proxy_config_cache_age_seconds"
  | .configReplaysTotal => "meshtastic_proxy_config_replays_total"
  | .messagesTotal => "meshtastic_proxy_messages_total"
  | .meshNodes => "meshtastic_proxy_mesh_nodes"
  | .nodeRssi => "meshtastic_proxy_node_rssi_dbm"
  | .nodeSnr => "meshtastic_proxy_node_snr_db"

def labelNames : Desc → List String
  | .info => ["node_address"]
  | .configReplaysTotal => ["type"]
  | .messagesTotal => ["port_num"]
  | .nodeRssi | .nodeSnr => ["node_num", "short_name"]
  | _ => []

/-- `Describe` -/
def describe : List Desc :=
  [.info, .uptime, .nodeConnected, .activeClients, .bytesFromNode, .bytesToNode, .framesFromNode, .framesToNode,
    .nodeReconnects, .nodeConnectionErrors, .configCacheFrames, .configCacheAgeSeconds, .configReplaysTotal,
    .messagesTotal, .meshNodes, .nodeRssi, .nodeSnr]

inductive ValueType where
  | counter | gauge
deriving DecidableEq, Repr

/-- what the float64 of a metric is made from; a duration is in nanoseconds -/
inductive Value where
  | number (n : ℤ)
  | seconds (d : ℤ)
  | snr (x : F32)
deriving DecidableEq, Repr

structure Metric where
  desc : Desc
  valueType : ValueType
  value : Value
  labelValues : List String := []
deriving DecidableEq, Repr

/-- what the registry tells metrics of a scrape apart by -/
def Metric.key (m : Metric) : Desc × List String := (m.desc, m.labelValues)

/-! ## The machine -/

inductive Counter where
  | bytesFromNode | bytesToNode | framesFromNode | framesToNode | nodeReconnects | nodeConnectionErrors
  | configReplaysFull | configReplaysConfigOnly | configReplaysNodesOnly
deriving DecidableEq, Repr

/-- the reads of Collect -/
inductive Read where
  | nodeAddress
  | uptime
  | nodeConnected
  | activeClients
  | counter (c : Counter)
  | configCacheFrames
  | configCacheAge
  | messageTypeCounts
  | nodeDir
deriving DecidableEq, Repr

/-- in the order of Collect -/
def reads : List Read :=
  [.nodeAddress, .uptime, .nodeConnected, .activeClients, .counter .bytesFromNode, .counter .bytesToNode,
    .counter .framesFromNode, .counter .framesToNode, .counter .nodeReconnects, .counter .nodeConnectionErrors,
    .configCacheFrames, .configCacheAge, .counter .configReplaysFull, .counter .configReplaysConfigOnly,
    .counter .configReplaysNodesOnly, .messageTypeCounts, .nodeDir]

/-- a scrape, with the reads still to do; `began` is the number of scrapes that were over when it began -/
structure Scrape where
  todo : List Read
  out : List Metric
  began : ℕ

structure Metrics where
  nodeAddress : String
  nodeConnected : Bool
  activeClients : ℤ
  counter : Counter → ℤ
  configCacheFrames : ℤ
  typeCounts : GoMap String ℤ
  nodeDir : Directory
  scrape : ℕ → Option Scrape
  /-- the scrapes that have ended, for the statements only -/
  finished : List Scrape

def init (nodeAddress : String) : Metrics :=
  ⟨nodeAddress, false, 0, fun _ => 0, 0, .empty, .empty, fun _ => none, []⟩

/-- the family of a counter, and its label values -/
def series : Counter → Desc × List String
  | .bytesFromNode => (.bytesFromNode, [])
  | .bytesToNode => (.bytesToNode, [])
  | .framesFromNode => (.framesFromNode, [])
  | .framesToNode => (.framesToNode, [])
  | .nodeReconnects => (.nodeReconnects, [])
  | .nodeConnectionErrors => (.nodeConnectionErrors, [])
  | .configReplaysFull => (.configReplaysTotal, ["full"])
  | .configReplaysConfigOnly => (.configReplaysTotal, ["config_only"])
  | .configReplaysNodesOnly => (.configReplaysTotal, ["nodes_only"])

/-- the signal metrics of one node -/
def nodeMetrics (num : UInt32) (entry : NodeEntry) : List Metric :=
  let labels := [Nat.repr num.toNat, entry.shortName]
  (if entry.rxRssi ≠ 0 then [⟨.nodeRssi, .gauge, .number entry.rxRssi, labels⟩] else []) ++
  (if entry.rxSnr.neZero then [⟨.nodeSnr, .gauge, .snr entry.rxSnr, labels⟩] else [])

/-- the metrics of the directory: those of its nodes, and how many there are -/
def directoryMetrics (dir : Directory) : List Metric :=
  (dir.keys.flatMap fun num => (dir.get? num).toList.flatMap (nodeMetrics num)) ++
    [⟨.meshNodes, .gauge, .number dir.keys.length, []⟩]

namespace Metrics

/-- the metrics that follow a read; the clock readings come from outside -/
def collect (s : Metrics) (uptime age : ℤ) : Read → List Metric
  | .nodeAddress => [⟨.info, .gauge, .number 1, [s.nodeAddress]⟩]
  | .uptime => [⟨.uptime, .gauge, .seconds uptime, []⟩]
  | .nodeConnected => [⟨.nodeConnected, .gauge, .number (if s.nodeConnected then 1 else 0), []⟩]
  | .activeClients => [⟨.activeClients, .gauge, .number s.activeClients, []⟩]
  | .counter c => [⟨(series c).1, .counter, .number (s.counter c), (series c).2⟩]
  | .configCacheFrames => [⟨.configCacheFrames, .gauge, .number s.configCacheFrames, []⟩]
  | .configCacheAge => [⟨.configCacheAgeSeconds, .gauge, .seconds age, []⟩]
  | .messageTypeCounts =>
    s.typeCounts.keys.map fun key => ⟨.messagesTotal, .counter, .number ((s.typeCounts.get? key).getD 0), [key]⟩
  | .nodeDir => directoryMetrics s.nodeDir

end Metrics

/-- `add`, `count` and the stores are anybody's; `begin_` and `collect` are the steps of a scrape -/
inductive Act where
  | add (c : Counter) (n : ℕ)
  | count (key : String)
  | connected (b : Bool)
  | clients (n : ℤ)
  | cacheFrames (n : ℤ)
  | directory (dir : Directory)
  | begin_ (g : ℕ)
  | collect (g : ℕ) (uptime age : ℤ)

def step (s : Metrics) : Act → Metrics
  | .add c n => { s with counter := Function.update s.counter c (wrap64 (s.counter c + n)) }
  | .count key => { s with typeCounts := s.typeCounts.set key (wrap64 ((s.typeCounts.get? key).getD 0 + 1)) }
  | .connected b => { s with nodeConnected := b }
  | .clients n => { s with activeClients := n }
  | .cacheFrames n => { s with configCacheFrames := n }
  | .directory dir => { s with nodeDir := dir }
  | .begin_ g =>
    if (s.scrape g).isNone then { s with scrape := Function.update s.scrape g (some ⟨reads, [], s.finished.length⟩) } else s
  | .collect g uptime age =>
    match s.scrape g with
    | none => s
    | some ⟨[], out, began⟩ => { s with scrape := Function.update s.scrape g none, finished := s.finished ++ [⟨[], out, began⟩] }
    | some ⟨r :: todo, out, began⟩ =>
      { s with scrape := Function.update s.scrape g (some ⟨todo, out ++ s.collect uptime age r, began⟩) }

/-! ## What one read gives -/

/-- the read a metric comes from -/
def readOf : Desc × List String → Option Read
  | (.info, _) => some .nodeAddress
  | (.uptime, _) => some .uptime
  | (.nodeConnected, _) => some .nodeConnected
  | (.activeClients, _) => some .activeClients
  | (.bytesFromNode, _) => some (.counter .bytesFromNode)
  | (.bytesToNode, _) => some (.counter .bytesToNode)
  | (.framesFromNode, _) => some (.counter .framesFromNode)
  | (.framesToNode, _) => some (.counter .framesToNode)
  | (.nodeReconnects, _) => some (.counter .nodeReconnects)
  | (.nodeConnectionErrors, _) => some (.counter .nodeConnectionErrors)
  | (.configCacheFrames, _) => some .configCacheFrames
  | (.configCacheAgeSeconds, _) => some .configCacheAge
  | (.configReplaysTotal, labels) =>
    if labels = ["full"] then some (.counter .configReplaysFull)
    else if labels = ["config_only"] then some (.counter .configReplaysConfigOnly)
    else if labels = ["nodes_only"] then some (.counter .configReplaysNodesOnly)
    else none
  | (.messagesTotal, _) => some .messageTypeCounts
  | (.meshNodes, _) | (.nodeRssi, _) | (.nodeSnr, _) => some .nodeDir

/-- a metric that the registry accepts by itself; a counter is one whose name says so -/
structure Accepted (m : Metric) : Prop where
  described : m.desc ∈ describe
  labels : m.labelValues.length = (labelNames m.desc).length
  counter : m.valueType = .counter ↔ "_total".toList <:+ (fqName m.desc).toList

variable {s : Metrics}

theorem mem_describe (d : Desc) : d ∈ describe := by cases d <;> decide

theorem nodeMetrics_spec {num : UInt32} {entry : NodeEntry} {m : Metric} (hm : m ∈ nodeMetrics num entry) :
    (m.desc = .nodeRssi ∨ m.desc = .nodeSnr) ∧ m.valueType = .gauge ∧
      m.labelValues = [Nat.repr num.toNat, entry.shortName] := by
  simp only [nodeMetrics, List.mem_append] at hm
  rcases hm with hm | hm <;> split_ifs at hm <;> simp at hm <;> subst hm <;> simp

theorem directoryMetrics_spec {dir : Directory} {m : Metric} (hm : m ∈ directoryMetrics dir) :
    (m.desc = .meshNodes ∧ m.labelValues = [] ∨ (m.desc = .nodeRssi ∨ m.desc = .nodeSnr) ∧ m.labelValues.length = 2) ∧
      m.valueType = .gauge := by
  simp only [directoryMetrics, List.mem_append, List.mem_flatMap, List.mem_singleton] at hm
  rcases hm with ⟨num, _, entry, _, hm⟩ | rfl
  · obtain ⟨hdesc, htype, hlabels⟩ := nodeMetrics_spec hm
    exact ⟨.inr ⟨hdesc, by rw [hlabels]; rfl⟩, htype⟩
  · exact ⟨.inl ⟨rfl, rfl⟩, rfl⟩

theorem total_iff (d : Desc) : "_total".toList <:+ (fqName d).toList ↔
    d ∈ [.bytesFromNode, .bytesToNode, .framesFromNode, .framesToNode, .nodeReconnects, .nodeConnectionErrors,
      .configReplaysTotal, .messagesTotal] := by
  cases d <;> decide

theorem fqName_injective : Function.Injective fqName := by
  intro a b h
  cases a <;> cases b <;> first | rfl | (revert h; decide)

/-- each metric can be traced to its read, and is accepted -/
theorem collect_spec {uptime age : ℤ} {r : Read} {m : Metric} (hm : m ∈ s.collect uptime age r) :
    readOf m.key = some r ∧ Accepted m := by
  have fixed : ∀ d v labels, readOf (d, labels) = some r → labels.length = (labelNames d).length →
      (v = ValueType.counter ↔ "_total".toList <:+ (fqName d).toList) → ∀ value, m = ⟨d, v, value, labels⟩ →
      readOf m.key = some r ∧ Accepted m := by
    rintro d v labels hread hlabels htotal value rfl
    exact ⟨hread, mem_describe d, hlabels, htotal⟩
  cases r with
  | counter c =>
    simp only [Metrics.collect, List.mem_singleton] at hm
    refine fixed _ _ _ ?_ ?_ ?_ _ hm
    · cases c <;> rfl
    · cases c <;> rfl
    · rw [total_iff]
      cases c <;> decide
  | messageTypeCounts =>
    simp only [Metrics.collect, List.mem_map] at hm
    obtain ⟨key, _, rfl⟩ := hm
    refine fixed _ _ _ ?_ ?_ ?_ _ rfl
    · rfl
    · rfl
    · rw [total_iff]
      decide
  | nodeDir =>
    obtain ⟨hdesc, htype⟩ := directoryMetrics_spec hm
    obtain ⟨desc, v, value, labels⟩ := m
    simp only at hdesc htype
    subst htype
    have hgauge : ∀ d, d = Desc.meshNodes ∨ d = .nodeRssi ∨ d = .nodeSnr →
        (ValueType.gauge = .counter ↔ "_total".toList <:+ (fqName d).toList) := by
      rintro d (rfl | rfl | rfl) <;> rw [total_iff] <;> decide
    rcases hdesc with ⟨rfl, rfl⟩ | ⟨rfl | rfl, hlabels⟩
    · exact fixed _ _ _ rfl rfl (hgauge _ (.inl rfl)) _ rfl
    · exact fixed _ _ _ rfl hlabels (hgauge _ (.inr (.inl rfl))) _ rfl
    · exact fixed _ _ _ rfl hlabels (hgauge _ (.inr (.inr rfl))) _ rfl
  | _ =>
    simp only [Metrics.collect, List.mem_singleton] at hm
    refine fixed _ _ _ ?_ ?_ ?_ _ hm
    · rfl
    · rfl
    · rw [total_iff]
      decide

theorem nodeMetrics_nodup (num : UInt32) (entry : NodeEntry) : ((nodeMetrics num entry).map Metric.key).Nodup := by
  simp only [nodeMetrics]
  split_ifs <;> simp [Metric.key]

/-- two nodes never share a series: the node number is a label, and distinct numbers are printed differently -/
theorem directoryMetrics_nodup (dir : Directory) : ((directoryMetrics dir).map Metric.key).Nodup := by
  have hnode : ∀ num, ∀ k ∈ ((dir.get? num).toList.flatMap (nodeMetrics num)).map Metric.key,
      k.1 ≠ .meshNodes ∧ k.2.head? = some (Nat.repr num.toNat) := by
    intro num k hk
    obtain ⟨m, hm, rfl⟩ := List.mem_map.1 hk
    obtain ⟨entry, _, hm⟩ := List.mem_flatMap.1 hm
    obtain ⟨hdesc, _, hlabels⟩ := nodeMetrics_spec hm
    refine ⟨?_, by simp [Metric.key, hlabels]⟩
    rcases hdesc with hdesc | hdesc <;> simp [Metric.key, hdesc]
  rw [directoryMetrics, List.map_append, List.map_flatMap]
  refine List.Nodup.append (List.nodup_flatMap.2 ⟨fun num _ => ?_, ?_⟩) (List.nodup_singleton _) ?_
  · cases dir.get? num with
    | none => exact List.nodup_nil
    | some entry => simpa using nodeMetrics_nodup num entry
  · refine dir.nodup.imp fun {num num'} hne => ?_
    intro k hk hk'
    have hsame := (hnode num k hk).2.symm.trans (hnode num' k hk').2
    exact hne (UInt32.toNat_inj.1 (Nat.repr_injective (Option.some_inj.1 hsame)))
  · intro k hk hlast
    obtain ⟨num, _, hk⟩ := List.mem_flatMap.1 hk
    apply (hnode num k hk).1
    simp only [List.map_cons, List.map_nil, List.mem_singleton] at hlast
    rw [hlast]
    rfl

theorem collect_nodup (uptime age : ℤ) (r : Read) : ((s.collect uptime age r).map Metric.key).Nodup := by
  cases r with
  | messageTypeCounts =>
    rw [Metrics.collect, List.map_map]
    refine s.typeCounts.nodup.map fun key key' h => ?_
    simpa [Metric.key] using h
  | nodeDir => exact directoryMetrics_nodup s.nodeDir
  | _ => exact List.nodup_singleton _

/-! ## A scrape is well formed -/

/-- a scrape under way: its metrics come from the reads that are done, and none is there twice -/
structure Scrape.Ok (sc : Scrape) : Prop where
  todo : sc.todo.Nodup
  reads : ∀ m ∈ sc.out, ∀ r ∈ sc.todo, readOf m.key ≠ some r
  accepted : ∀ m ∈ sc.out, Accepted m
  nodup : (sc.out.map Metric.key).Nodup

theorem reads_nodup : reads.Nodup := by decide

theorem begin_ok (began : ℕ) : Scrape.Ok ⟨reads, [], began⟩ :=
  ⟨reads_nodup, fun _ h => absurd h List.not_mem_nil, fun _ h => absurd h List.not_mem_nil, List.nodup_nil⟩

theorem Scrape.Ok.collect {r : Read} {todo : List Read} {out : List Metric} {began : ℕ}
    (h : Scrape.Ok ⟨r :: todo, out, began⟩) (s : Metrics) (uptime age : ℤ) :
    Scrape.Ok ⟨todo, out ++ s.collect uptime age r, began⟩ := by
  obtain ⟨hnew, htodo⟩ := List.nodup_cons.1 h.todo
  refine ⟨htodo, fun m hm r' hr' => ?_, fun m hm => ?_, ?_⟩
  · rcases List.mem_append.1 hm with hm | hm
    · exact h.reads m hm r' (List.mem_cons_of_mem r hr')
    · rw [(collect_spec hm).1]
      rintro ⟨rfl⟩
      exact hnew hr'
  · rcases List.mem_append.1 hm with hm | hm
    · exact h.accepted m hm
    · exact (collect_spec hm).2
  · rw [List.map_append]
    refine h.nodup.append (collect_nodup uptime age r) fun k hk hk' => ?_
    obtain ⟨m, hm, rfl⟩ := List.mem_map.1 hk
    obtain ⟨m', hm', hkey⟩ := List.mem_map.1 hk'
    apply h.reads m hm r List.mem_cons_self
    rw [← hkey, (collect_spec hm').1]

structure WellFormed (s : Metrics) : Prop where
  scrape : ∀ g sc, s.scrape g = some sc → sc.Ok
  finished : ∀ sc ∈ s.finished, sc.Ok

/-- what a step does to the scrapes: nothing, or one begins, reads on or ends -/
inductive Moves (s : Metrics) : Act → Metrics → Prop
  | other {a : Act} {s' : Metrics} (hscrape : s'.scrape = s.scrape) (hfinished : s'.finished = s.finished) : Moves s a s'
  | begins {g : ℕ} (hidle : s.scrape g = none) :
    Moves s (.begin_ g) { s with scrape := Function.update s.scrape g (some ⟨reads, [], s.finished.length⟩) }
  | reads {g : ℕ} {uptime age : ℤ} {r : Read} {todo : List Read} {out : List Metric} {began : ℕ}
      (hat : s.scrape g = some ⟨r :: todo, out, began⟩) :
    Moves s (.collect g uptime age)
      { s with scrape := Function.update s.scrape g (some ⟨todo, out ++ s.collect uptime age r, began⟩) }
  | ends {g : ℕ} {uptime age : ℤ} {out : List Metric} {began : ℕ} (hat : s.scrape g = some ⟨[], out, began⟩) :
    Moves s (.collect g uptime age)
      { s with scrape := Function.update s.scrape g none, finished := s.finished ++ [⟨[], out, began⟩] }

theorem step_moves (s : Metrics) (a : Act) : Moves s a (step s a) := by
  cases a with
  | begin_ g =>
    simp only [step]
    split_ifs with hidle
    · exact .begins (Option.isNone_iff_eq_none.1 hidle)
    · exact .other rfl rfl
  | collect g uptime age =>
    simp only [step]
    split <;> rename_i hat
    · exact .other rfl rfl
    · exact .ends hat
    · exact .reads hat
  | _ => exact .other rfl rfl

/-- the scrape of a goroutine that was given another one, or of any other -/
theorem update_some {scrape : ℕ → Option Scrape} {g g' : ℕ} {x : Option Scrape} {sc : Scrape}
    (h : Function.update scrape g x g' = some sc) : x = some sc ∨ scrape g' = some sc := by
  rw [Function.update_apply] at h
  split_ifs at h
  · exact .inl h
  · exact .inr h

theorem Moves.wellFormed {a : Act} {s' : Metrics} (hmove : Moves s a s') (h : WellFormed s) : WellFormed s' := by
  cases hmove with
  | other hscrape hfinished =>
    refine ⟨fun g sc hsc => h.scrape g sc ?_, fun sc hsc => h.finished sc ?_⟩
    · rwa [← hscrape]
    · rwa [← hfinished]
  | begins hidle =>
    refine ⟨fun g' sc hsc => ?_, h.finished⟩
    rcases update_some hsc with hnew | hold
    · cases hnew
      exact begin_ok _
    · exact h.scrape g' sc hold
  | reads hat =>
    refine ⟨fun g' sc hsc => ?_, h.finished⟩
    rcases update_some hsc with hnew | hold
    · cases hnew
      exact (h.scrape _ _ hat).collect s _ _
    · exact h.scrape g' sc hold
  | ends hat =>
    refine ⟨fun g' sc hsc => ?_, fun sc hsc => ?_⟩
    · rcases update_some hsc with hnone | hold
      · cases hnone
      · exact h.scrape g' sc hold
    · rcases List.mem_append.1 hsc with hsc | hsc
      · exact h.finished sc hsc
      · rw [List.mem_singleton.1 hsc]
        exact h.scrape _ _ hat

/-- **No scrape is turned down.** In every run, with any goroutines adding, storing and scraping at once, the metrics of
every finished scrape are of described families, with as many label values as the family has labels, counters under a
name that ends in `_total` and gauges under the others, and no two metrics have one family name and the same label
values. -/
theorem scrape_well_formed (nodeAddress : String) (as : List Act) :
    ∀ sc ∈ (run step (init nodeAddress) as).finished,
      (∀ m ∈ sc.out, Accepted m) ∧ (sc.out.map fun m => (fqName m.desc, m.labelValues)).Nodup := by
  have hwf : WellFormed (run step (init nodeAddress) as) := by
    refine run_inv_all (I := WellFormed) (fun s a h => (step_moves s a).wellFormed h) as ?_
    exact ⟨fun _ _ h => by simp [init] at h, fun _ h => by simp [init] at h⟩
  intro sc hsc
  obtain ⟨-, -, haccepted, hnodup⟩ := hwf.finished sc hsc
  refine ⟨haccepted, ?_⟩
  have hname : (sc.out.map fun m => (fqName m.desc, m.labelValues)) =
      (sc.out.map Metric.key).map (Prod.map fqName id) := by
    rw [List.map_map]
    rfl
  rw [hname]
  exact hnodup.map (fqName_injective.prodMap Function.injective_id)

/-- a scrape of a directory with one node -/
def oneScrape : List Act :=
  .directory (GoMap.empty.set 7 { shortName := "n7", rxRssi := -90 }) ::
    .begin_ 0 :: List.replicate 18 (.collect 0 1 1)

theorem scrape_well_formed_one_node :
    ∃ sc, (run step (init "node:4403") oneScrape).finished = [sc] ∧ sc.out.length = 17 ∧
      (∀ m ∈ sc.out, Accepted m) ∧ (sc.out.map fun m => (fqName m.desc, m.labelValues)).Nodup := by
  refine ⟨_, rfl, rfl, ?_⟩
  exact scrape_well_formed "node:4403" oneScrape _ List.mem_cons_self

/-! ## Counters never fall -/

/-- the same series, with a value that is not smaller -/
def Metric.LE (m m' : Metric) : Prop :=
  m'.key = m.key ∧ m'.valueType = .counter ∧ ∃ n n', m.value = .number n ∧ m'.value = .number n' ∧ n ≤ n'

theorem Metric.LE.trans {m m' m'' : Metric} (h : m.LE m') (h' : m'.LE m'') : m.LE m'' := by
  obtain ⟨hkey, -, n, n', hn, hn', hle⟩ := h
  obtain ⟨hkey', htype, k, k', hk, hk', hle'⟩ := h'
  have hsame : n' = k := by
    rw [hn'] at hk
    exact Value.number.inj hk
  exact ⟨hkey'.trans hkey, htype, n, k', hn, hk', hle.trans (hsame ▸ hle')⟩

structure Grows (s s' : Metrics) : Prop where
  counter : ∀ c, s.counter c ≤ s'.counter c
  typeCounts : ∀ key n, s.typeCounts.get? key = some n → ∃ n', s'.typeCounts.get? key = some n' ∧ n ≤ n'

theorem Grows.refl (s : Metrics) : Grows s s := ⟨fun _ => le_rfl, fun _ n h => ⟨n, h, le_rfl⟩⟩

/-- what a read gives of the counters is there in a later read, and not smaller -/
theorem Grows.collect {s' : Metrics} (h : Grows s s') {uptime age : ℤ} {r : Read} {m : Metric}
    (hm : m ∈ s.collect uptime age r) (hcounter : m.valueType = .counter) (uptime' age' : ℤ) :
    ∃ m' ∈ s'.collect uptime' age' r, m.LE m' := by
  cases r with
  | counter c =>
    simp only [Metrics.collect, List.mem_singleton] at hm
    subst hm
    exact ⟨_, List.mem_singleton.2 rfl, rfl, rfl, _, _, rfl, rfl, h.counter c⟩
  | messageTypeCounts =>
    simp only [Metrics.collect, List.mem_map] at hm
    obtain ⟨key, hkey, rfl⟩ := hm
    obtain ⟨n, hn⟩ := Option.isSome_iff_exists.1 ((s.typeCounts.mem_keys key).1 hkey)
    obtain ⟨n', hn', hle⟩ := h.typeCounts key n hn
    refine ⟨⟨.messagesTotal, .counter, .number n', [key]⟩, ?_, rfl, rfl, n, n', by simp [hn], rfl, hle⟩
    simp only [Metrics.collect, List.mem_map]
    refine ⟨key, ?_, by simp [hn']⟩
    rw [s'.typeCounts.mem_keys, hn']
    rfl
  | nodeDir =>
    rw [(directoryMetrics_spec hm).2] at hcounter
    cases hcounter
  | _ =>
    simp only [Metrics.collect, List.mem_singleton] at hm
    subst hm
    cases hcounter

/-- no int64 goes round in this step -/
def NoOverflow (s : Metrics) : Act → Prop
  | .add c n => s.counter c + n < 2 ^ 63
  | .count key => (s.typeCounts.get? key).getD 0 + 1 < 2 ^ 63
  | _ => True

structure NonNeg (s : Metrics) : Prop where
  counter : ∀ c, 0 ≤ s.counter c
  typeCounts : ∀ key n, s.typeCounts.get? key = some n → 0 ≤ n

theorem wrap64_of_lt {x : ℤ} (h0 : 0 ≤ x) (h : x < 2 ^ 63) : wrap64 x = x := by
  rw [wrap64, Int.bmod_eq_of_le_mul_two] <;> omega

theorem step_grows (h : NonNeg s) {a : Act} (hno : NoOverflow s a) : Grows s (step s a) ∧ NonNeg (step s a) := by
  have keeps : ∀ {s' : Metrics}, s'.counter = s.counter → s'.typeCounts = s.typeCounts → Grows s s' ∧ NonNeg s' := by
    intro s' hcounter htypes
    refine ⟨⟨fun c => ?_, fun key n hn => ⟨n, ?_, le_rfl⟩⟩, ⟨fun c => ?_, fun key n hn => h.typeCounts key n ?_⟩⟩
    · rw [hcounter]
    · rwa [htypes]
    · rw [hcounter]
      exact h.counter c
    · rwa [← htypes]
  cases a with
  | add c n =>
    have h0 : 0 ≤ s.counter c := h.counter c
    have hnew : wrap64 (s.counter c + n) = s.counter c + n := wrap64_of_lt (by omega) hno
    refine ⟨⟨fun c' => ?_, (Grows.refl s).typeCounts⟩, ⟨fun c' => ?_, h.typeCounts⟩⟩ <;>
      simp only [step, hnew, Function.update_apply] <;> split_ifs with hc
    · subst hc
      omega
    · exact le_rfl
    · omega
    · exact h.counter c'
  | count key =>
    have h0 : 0 ≤ (s.typeCounts.get? key).getD 0 := by
      cases hget : s.typeCounts.get? key with
      | none => exact le_rfl
      | some n => exact h.typeCounts key n hget
    have hnew := wrap64_of_lt (by omega) hno
    refine ⟨⟨(Grows.refl s).counter, fun key' n hn => ?_⟩, ⟨h.counter, fun key' n hn => ?_⟩⟩
    · simp only [step, hnew, GoMap.get?_set]
      split_ifs with hkey
      · subst hkey
        refine ⟨_, rfl, ?_⟩
        rw [hn, Option.getD_some]
        omega
      · exact ⟨n, hn, le_rfl⟩
    · simp only [step, hnew, GoMap.get?_set] at hn
      split_ifs at hn with hkey
      · cases hn
        omega
      · exact h.typeCounts key' n hn
  | begin_ g =>
    simp only [step]
    split_ifs
    · exact keeps rfl rfl
    · exact keeps rfl rfl
  | collect g uptime age =>
    simp only [step]
    split <;> exact keeps rfl rfl
  | _ => exact keeps rfl rfl

/-- a finished scrape's counters are there in what is read now -/
def Covered (s : Metrics) (m : Metric) : Prop :=
  ∃ r, readOf m.key = some r ∧ ∀ uptime age, ∃ m' ∈ s.collect uptime age r, m.LE m'

theorem Covered.grow {s' : Metrics} {m : Metric} (h : Covered s m) (hgrow : Grows s s') : Covered s' m := by
  obtain ⟨r, hr, hread⟩ := h
  refine ⟨r, hr, fun uptime age => ?_⟩
  obtain ⟨m', hm', hle⟩ := hread 0 0
  obtain ⟨m'', hm'', hle'⟩ := hgrow.collect hm' hle.2.1 uptime age
  exact ⟨m'', hm'', hle.trans hle'⟩

/-- a scrape has the counters of those that were over when it began, except what it still has to read -/
def Answers (s : Metrics) (sc : Scrape) : Prop :=
  sc.began ≤ s.finished.length ∧
    ∀ i A, i < sc.began → s.finished[i]? = some A → ∀ m ∈ A.out, m.valueType = .counter →
      (∃ r ∈ sc.todo, readOf m.key = some r) ∨ ∃ m' ∈ sc.out, m.LE m'

structure Inv (s : Metrics) : Prop where
  nonNeg : NonNeg s
  covered : ∀ sc, (∃ g, s.scrape g = some sc) ∨ sc ∈ s.finished → ∀ m ∈ sc.out, m.valueType = .counter → Covered s m
  scrape : ∀ g sc, s.scrape g = some sc → Answers s sc
  finished : ∀ sc ∈ s.finished, sc.todo = [] ∧ Answers s sc

theorem init_inv (nodeAddress : String) : Inv (init nodeAddress) where
  nonNeg := ⟨fun _ => le_rfl, fun _ _ h => by simp [init] at h⟩
  covered := fun sc h => by simp [init] at h
  scrape := fun _ _ h => by simp [init] at h
  finished := fun _ h => by simp [init] at h

theorem Answers.grow {s' : Metrics} {sc : Scrape} (h : Answers s sc) (hpre : s.finished <+: s'.finished) : Answers s' sc := by
  obtain ⟨hbegan, hall⟩ := h
  refine ⟨hbegan.trans hpre.length_le, fun i A hi hA => hall i A hi ?_⟩
  obtain ⟨more, hmore⟩ := hpre
  rwa [← hmore, List.getElem?_append_left (by omega)] at hA

theorem mem_reads (r : Read) : r ∈ reads := by
  cases r with
  | counter c => cases c <;> decide
  | _ => decide

/-- a scrape that begins has everything still to read -/
theorem Inv.begins (h : Inv s) : Answers s ⟨reads, [], s.finished.length⟩ := by
  refine ⟨le_rfl, fun i A _ hA m hm hcounter => .inl ?_⟩
  obtain ⟨r, hr, -⟩ := h.covered A (.inr (List.mem_of_getElem? hA)) m hm hcounter
  exact ⟨r, mem_reads r, hr⟩

/-- a scrape reads on: what it still had to read of the earlier ones is read now -/
theorem Inv.reads (h : Inv s) {r : Read} {todo : List Read} {out : List Metric} {began : ℕ}
    (hsc : Answers s ⟨r :: todo, out, began⟩) (uptime age : ℤ) :
    Answers s ⟨todo, out ++ s.collect uptime age r, began⟩ := by
  refine ⟨hsc.1, fun i A hi hA m hm hcounter => ?_⟩
  rcases hsc.2 i A hi hA m hm hcounter with ⟨r', hr', hread⟩ | ⟨m', hm', hle⟩
  · rcases List.mem_cons.1 hr' with rfl | hr'
    · obtain ⟨r, hr, hnow⟩ := h.covered A (.inr (List.mem_of_getElem? hA)) m hm hcounter
      obtain rfl := Option.some.inj (hr.symm.trans hread)
      obtain ⟨m', hm', hle⟩ := hnow uptime age
      exact .inr ⟨m', List.mem_append_right out hm', hle⟩
    · exact .inl ⟨r', hr', hread⟩
  · exact .inr ⟨m', List.mem_append_left _ hm', hle⟩

/-- the finished scrapes stay finished -/
theorem Inv.stay (h : Inv s) {s' : Metrics} (hpre : s.finished <+: s'.finished) {sc : Scrape} (hsc : sc ∈ s.finished) :
    sc.todo = [] ∧ Answers s' sc := by
  obtain ⟨htodo, hanswers⟩ := h.finished sc hsc
  exact ⟨htodo, hanswers.grow hpre⟩

theorem Moves.inv {a : Act} {s' : Metrics} (hmove : Moves s a s') (h : Inv s) (hgrow : Grows s s') (h0 : NonNeg s') :
    Inv s' := by
  have hcovered : ∀ sc, (∃ g, s.scrape g = some sc) ∨ sc ∈ s.finished → ∀ m ∈ sc.out, m.valueType = .counter →
      Covered s' m := fun sc hsc m hm hcounter => (h.covered sc hsc m hm hcounter).grow hgrow
  cases hmove with
  | other hscrape hfinished =>
    have hpre : s.finished <+: s'.finished := by rw [hfinished]
    refine ⟨h0, fun sc hsc => hcovered sc ?_, fun g sc hsc => ?_, fun sc hsc => ?_⟩
    · rwa [← hscrape, ← hfinished]
    · rw [hscrape] at hsc
      exact (h.scrape g sc hsc).grow hpre
    · rw [hfinished] at hsc
      exact h.stay hpre hsc
  | begins hidle =>
    refine ⟨h0, ?_, ?_, fun sc hsc => h.stay (List.prefix_refl _) hsc⟩
    · rintro sc (⟨g', hsc⟩ | hsc) m hm
      · rcases update_some hsc with hnew | hold
        · cases hnew
          exact absurd hm List.not_mem_nil
        · exact hcovered sc (.inl ⟨g', hold⟩) m hm
      · exact hcovered sc (.inr hsc) m hm
    · intro g' sc hsc
      rcases update_some hsc with hnew | hold
      · cases hnew
        exact h.begins.grow (List.prefix_refl _)
      · exact (h.scrape g' sc hold).grow (List.prefix_refl _)
  | @reads g uptime age r todo out began hat =>
    refine ⟨h0, ?_, ?_, fun sc hsc => h.stay (List.prefix_refl _) hsc⟩
    · rintro sc (⟨g', hsc⟩ | hsc) m hm hcounter
      · rcases update_some hsc with hnew | hold
        · cases hnew
          rcases List.mem_append.1 hm with hm | hm
          · exact hcovered _ (.inl ⟨g, hat⟩) m hm hcounter
          · exact ⟨r, (collect_spec hm).1, fun _ _ => hgrow.collect hm hcounter _ _⟩
        · exact hcovered sc (.inl ⟨g', hold⟩) m hm hcounter
      · exact hcovered sc (.inr hsc) m hm hcounter
    · intro g' sc hsc
      rcases update_some hsc with hnew | hold
      · cases hnew
        exact (h.reads (h.scrape g _ hat) uptime age).grow (List.prefix_refl _)
      · exact (h.scrape g' sc hold).grow (List.prefix_refl _)
  | @ends g uptime age out began hat =>
    have hpre : s.finished <+: s.finished ++ [⟨[], out, began⟩] := List.prefix_append _ _
    refine ⟨h0, fun sc hsc => hcovered sc ?_, fun g' sc hsc => ?_, fun sc hsc => ?_⟩
    · rcases hsc with ⟨g', hsc⟩ | hsc
      · rcases update_some hsc with hnone | hold
        · cases hnone
        · exact .inl ⟨g', hold⟩
      · rcases List.mem_append.1 hsc with hsc | hsc
        · exact .inr hsc
        · rw [List.mem_singleton.1 hsc]
          exact .inl ⟨g, hat⟩
    · rcases update_some hsc with hnone | hold
      · cases hnone
      · exact (h.scrape g' sc hold).grow hpre
    · rcases List.mem_append.1 hsc with hsc | hsc
      · exact h.stay hpre hsc
      · rw [List.mem_singleton.1 hsc]
        exact ⟨rfl, (h.scrape g _ hat).grow hpre⟩

/-- **Counters never fall.** In every run in which no int64 goes round, what a finished scrape says of a counter or of a
message type, every scrape that began after it says too, with a value that is not smaller: for a reader that scrapes again
and again no counter is ever reset and no series of it goes away. -/
theorem counters_never_fall (nodeAddress : String) (as : List Act) (hno : Along step NoOverflow (init nodeAddress) as)
    (i j : ℕ) (A B : Scrape) (hA : (run step (init nodeAddress) as).finished[i]? = some A)
    (hB : (run step (init nodeAddress) as).finished[j]? = some B) (hlater : i < B.began) :
    ∀ m ∈ A.out, m.valueType = .counter → ∃ m' ∈ B.out, m.LE m' := by
  have hinv : Inv (run step (init nodeAddress) as) := by
    refine run_inv (fun s a h hno => ?_) (init_inv nodeAddress) hno
    obtain ⟨hgrow, h0⟩ := step_grows h.nonNeg hno
    exact (step_moves s a).inv h hgrow h0
  intro m hm hcounter
  obtain ⟨htodo, -, hall⟩ := hinv.finished B (List.mem_of_getElem? hB)
  rcases hall i A hlater hA m hm hcounter with ⟨r, hr, -⟩ | hcovered
  · rw [htodo] at hr
    exact absurd hr List.not_mem_nil
  · exact hcovered

/-- one scrape, five more bytes and a second scrape -/
def twoScrapes : List Act :=
  .begin_ 0 :: List.replicate 18 (.collect 0 1 1) ++ .add .bytesFromNode 5 :: .begin_ 0 :: List.replicate 18 (.collect 0 2 2)

theorem counters_never_fall_two_scrapes :
    ∃ A B, (run step (init "node:4403") twoScrapes).finished = [A, B] ∧
      ∀ m ∈ A.out, m.valueType = .counter → ∃ m' ∈ B.out, m.LE m' := by
  have hno : Along step NoOverflow (init "node:4403") twoScrapes := by
    simp [twoScrapes, List.replicate, Along, NoOverflow, step, init, reads]
  refine ⟨_, _, rfl, ?_⟩
  exact counters_never_fall "node:4403" twoScrapes hno 0 1 _ _ rfl rfl (by decide)

end MeshProxy.Exposition
