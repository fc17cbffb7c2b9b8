/-
  File:      DeveSub/Storage/NodePool.lean
  Subject:   The node pool repository: the entries its queries answer, and manual imports
             (`node_pool_repository.rs`, `node_pool_repository/write.rs`, `node_row.rs`).

  What a query answers is a function of the tables alone (`entries`). The fingerprint of a node,
  a keyed digest of its canonical identity, is an argument. Where a statement takes one row with
  `LIMIT 1` and no order, the model takes the first in the table.
-/
import Mathlib.Data.List.MinMax
import Mathlib.Data.List.Sort
import DeveSub.Storage.Sources

namespace DeveSub

/-- `Host::parse_uri_host`. -/
def Host.parseUriHost (s : Str) : Host :=
  match (stripPrefix ['['] s).bind (stripSuffix [']']) with
  | some inner =>
    match Ipv6Addr.parse inner with
    | some addr => .ipv6 addr
    | none => .domain inner
  | none =>
    match Ipv4Addr.parse s with
    | some addr => .ipv4 addr
    | none =>
      match Ipv6Addr.parse s with
      | some addr => .ipv6 addr
      | none => .domain s

namespace NodePool

/-! ## 1. The effective entry -/

/-- The label of an entry: the stored one, or the name of the bound source with the least id. -/
def effectiveLabel (db : Db) (n : NodeRow) : Str :=
  if n.sourceLabel.isEmpty then
    (((db.sources.rows.filter fun s => Sources.boundTo db.bindings n.id s.id).argmin
      Source.id).map Source.name).getD []
  else n.sourceLabel

/-- The TLS settings with the fields an override sets; a node without TLS stays without. -/
def overrideTls (o : Option NodeOverride) (tls : TlsConfig) : TlsConfig :=
  { tls with
    serverName := (o.bind NodeOverride.sni).or tls.serverName
    skipCertVerify := (o.bind NodeOverride.skipCertVerify).or tls.skipCertVerify
    clientFingerprint := (o.bind NodeOverride.fingerprint).or tls.clientFingerprint }

/-- The tags of a node. -/
def tagsOf (db : Db) (id : NodeId) : List Tag :=
  db.tags.rows.filter fun t => db.nodeTags.rows.any fun nt => nt.nodeId = id && nt.tagId = t.id

/-- `COALESCE(o.enabled, n.status = 'active')`. -/
def isActive (db : Db) (n : NodeRow) : Bool :=
  ((db.overrides.find n.id).bind NodeOverride.enabled).getD n.statusActive

/-- `COALESCE(o.region, n.region)`. -/
def effectiveRegion (db : Db) (n : NodeRow) : Option Str :=
  ((db.overrides.find n.id).bind NodeOverride.region).or n.region

/-- `NodeRow::to_pool_entry`. -/
def toPoolEntry (db : Db) (n : NodeRow) : NodePoolEntry :=
  let o := db.overrides.find n.id
  { node :=
      { id := n.id
        node :=
          { n.node with
            displayName := (o.bind NodeOverride.displayName).getD n.node.displayName
            endpoint := { n.node.endpoint with host := .parseUriHost n.host }
            tls := n.node.tls.map (overrideTls o) }
        region := effectiveRegion db n
        sourceLabel := effectiveLabel db n
        chain := n.chain }
    missingFromSource := n.missingFromSource
    isActive := isActive db n
    revision := n.revision
    overrideInfo := o
    tags := tagsOf db n.id }

/-- **The pool as its queries see it.** -/
def entries (db : Db) : List NodePoolEntry := db.nodes.rows.map (toPoolEntry db)

/-! ## 2. Queries -/

/-- A query of the generation pipeline. -/
inductive Query where
  | listNodes (filter : NodeFilter) (cursor : Option NodeId) (limit : Nat)
  | getNodes (ids : List NodeId)

/-- The `WHERE` of `list_nodes`. -/
def visible (filter : NodeFilter) (cursor : Option NodeId) (e : NodePoolEntry) : Bool :=
  (filter.protocol.all fun p => p = e.node.node.protocol) &&
    (filter.region.all fun r => e.node.region = some r) &&
    (filter.includeMissing || !e.missingFromSource) &&
    (filter.includeInactive || e.isActive) &&
    cursor.all fun c => c < e.node.id

/-- `list_nodes`: at most 10000 entries, in the order of their ids. -/
def listNodes (pool : List NodePoolEntry) (filter : NodeFilter) (cursor : Option NodeId)
    (limit : Nat) : List NodePoolEntry :=
  ((pool.filter (visible filter cursor)).insertionSort fun a b => a.node.id ≤ b.node.id).take
    (min limit 10000)

/-- `get_nodes`, in batches of 500. -/
def getNodes (pool : List NodePoolEntry) (ids : List NodeId) : List NodePoolEntry :=
  (chunks 500 ids).flatMap fun chunk => pool.filter fun e => chunk.contains e.node.id

/-- The answer to a query. -/
def answer (pool : List NodePoolEntry) : Query → List NodePoolEntry
  | .listNodes filter cursor limit => listNodes pool filter cursor limit
  | .getNodes ids => getNodes pool ids

/-! ## 3. Writing a node -/

/-- The row of a new node. -/
def newRow (n : PooledNode) (fingerprint sourceLabel : Str) : NodeRow where
  id := n.id
  node := n.node
  host := n.node.endpoint.host.uriHost
  region := n.region
  chain := none
  revision := 0
  statusActive := true
  missingFromSource := false
  sourceLabel := sourceLabel
  identityFingerprint := fingerprint

/-- The node with a fingerprint that is not missing. -/
def present (fingerprint : Str) (n : NodeRow) : Bool :=
  n.identityFingerprint = fingerprint && !n.missingFromSource

/-- A node with a fingerprint that is missing. -/
def absent (fingerprint : Str) (n : NodeRow) : Bool :=
  n.identityFingerprint = fingerprint && n.missingFromSource

/-- `insert_node`: a conflict, with the key or with `idx_nodes_dedup`, inserts nothing. -/
def insertNode (nodes : Table NodeRow) (n : PooledNode) (fingerprint sourceLabel : Str) :
    Option (Table NodeRow) :=
  if fingerprint ≠ [] && nodes.rows.any (present fingerprint) then none
  else nodes.insert (newRow n fingerprint sourceLabel)

/-- The `SET` of `retain_manual_contribution`. -/
def retained (sourceLabel : Str) (n : NodeRow) : NodeRow :=
  { n with
    sourceLabel := if n.sourceLabel.isEmpty then sourceLabel else n.sourceLabel
    missingFromSource := false
    revision := n.revision + 1 }

/-- `retain_manual_contribution`. -/
def retainManualContribution (nodes : Table NodeRow) (id : NodeId) (sourceLabel : Str) :
    Table NodeRow :=
  nodes.update (fun n => n.id = id && (n.sourceLabel.isEmpty || n.missingFromSource))
    (retained sourceLabel) fun _ => rfl

/-! ## 4. Import -/

section Import

variable (fingerprint : PooledNode → Except SourceError Str)

/-- The label a manual import leaves: never the empty one. -/
def independentLabel (n : PooledNode) : Str :=
  if n.sourceLabel.isEmpty then "manual" else n.sourceLabel

/-- `result.duplicate_nodes += 1`, with the outcome. -/
def countDuplicate (r : ImportResult) (id : NodeId) : ImportResult :=
  { r with duplicateNodes := r.duplicateNodes + 1, outcomes := r.outcomes ++ [.duplicate id] }

/-- `result.new_nodes += 1`, with the outcome. -/
def countNew (r : ImportResult) (id : NodeId) : ImportResult :=
  { r with newNodes := r.newNodes + 1, outcomes := r.outcomes ++ [.inserted id] }

/-- One turn of the loop of `import_nodes`: the contribution is kept on the node that is there,
    on a missing one that comes back, or on a new one. -/
def importOne (nodes : Table NodeRow) (r : ImportResult) (n : PooledNode) (fp : Str) :
    Table NodeRow × ImportResult :=
  let label := independentLabel n
  match nodes.rows.find? (present fp) with
  | some existing => (retainManualContribution nodes existing.id label, countDuplicate r existing.id)
  | none =>
    match nodes.rows.find? (absent fp) with
    | some missing => (retainManualContribution nodes missing.id label, countNew r missing.id)
    | none =>
      match insertNode nodes n fp label with
      | some nodes' => (nodes', countNew r n.id)
      -- the key was taken: the winner of the race, if there is one
      | none =>
        match nodes.rows.find? (present fp) with
        | some winner => (retainManualContribution nodes winner.id label, countDuplicate r winner.id)
        | none => (nodes, r)

/-- The loop of `import_nodes`. -/
def importAll (nodes : Table NodeRow) (r : ImportResult) :
    List PooledNode → Except SourceError (Table NodeRow × ImportResult)
  | [] => .ok (nodes, r)
  | n :: rest => do
    let fp ← fingerprint n
    let (nodes, r) := importOne nodes r n fp
    importAll nodes r rest

/-- `import_nodes`. -/
def importNodes (input : List PooledNode) : Tx Db SourceError ImportResult := fun db => do
  let (nodes, r) ← importAll fingerprint db.nodes ⟨0, 0, []⟩ input
  let db ← bumpRevisionTx { db with nodes }
  return (r, db)

/-- **A committed import** changes the nodes and bumps the revision. -/
theorem importNodes_eq_ok {input : List PooledNode} {db db' : Db} {r : ImportResult}
    (h : importNodes fingerprint input db = .ok (r, db')) :
    ∃ (nodes : Table NodeRow) (m : PoolMeta),
      importAll fingerprint db.nodes ⟨0, 0, []⟩ input = .ok (nodes, r) ∧
      m.revision = db.revision + 1 ∧ m.withdrawalRevision = db.floor ∧
      db' = { db with nodes, poolMeta := m } := by
  obtain ⟨⟨nodes, r'⟩, hall, h⟩ := bind_eq_ok.1 h
  obtain ⟨d, hbump, h⟩ := bind_eq_ok.1 h
  obtain ⟨rfl, rfl⟩ := ok_pair_inj h
  obtain ⟨m, hrev, hfl, heq⟩ := bumpRevisionTx_eq_ok hbump
  exact ⟨nodes, m, hall, hrev, hfl, heq⟩

end Import

end NodePool

end DeveSub
