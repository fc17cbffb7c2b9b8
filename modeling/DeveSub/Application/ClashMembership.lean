/-
  File:      DeveSub/Application/ClashMembership.lean
  Subject:   The members of native Clash groups (`deve-sub-application`:
             `template/clash_membership.rs`, `template/clash_filter.rs`).

  The work budget is a state. Whether the deadline has passed at a reading of the clock is an
  argument (`late`), and so is the crate of regular expressions. A hash map is the list of its
  insertions, the last one of a key counts; a hash set is a list in the order of insertion.
-/
import DeveSub.Application.Clash
import DeveSub.Lib.Labels
import DeveSub.Lib.Stateful

namespace DeveSub.ClashMembership

/-! ## 1. The budget and the filters -/

/-- The crate of regular expressions; `none` is its error. -/
structure RegexCrate where
  Pattern : Type
  build : Str → Option Pattern
  isMatch : Pattern → Str → Option Bool

/-- What the environment decides: the expressions, and whether it is late at the n-th reading. -/
structure Surroundings where
  regex : RegexCrate
  late : Nat → Bool

/-- `Budget`, and how often the clock was read. -/
structure Budget where
  remaining : Nat
  bytes : Nat
  patterns : Nat
  readings : Nat

/-- `Budget::new`. -/
def Budget.new : Budget := ⟨1000000, 64 * 1024 * 1024, 256, 0⟩

/-- A computation that draws on the budget. -/
abbrev Work (α : Type) := Stateful Budget TemplateAppError α

/-- `str::len`. -/
def byteLength (s : Str) : Nat := (utf8Bytes s).length

variable (S : Surroundings)

/-- `Budget::visit`. -/
def visit (bytes : Nat) : Work Unit := Stateful.step fun b =>
  if b.remaining = 0 || bytes > b.bytes || S.late b.readings then
    (Clash.invalid "proxy-group filtering exceeded its bounded work budget", b)
  else (.ok (), { b with remaining := b.remaining - 1, bytes := b.bytes - bytes,
                         readings := b.readings + 1 })

/-- `Matcher`. -/
abbrev Matcher := List S.regex.Pattern

/-- `Matcher::matches`. -/
def matchesAny (name : Str) : Matcher S → Work Bool
  | [] => pure false
  | pattern :: rest => do
    visit S (byteLength name)
    let hit ← Stateful.lift (okOr (S.regex.isMatch pattern name)
      (.invalidInput "proxy-group regular expression exceeded its execution limit"))
    if hit then pure true else matchesAny name rest

/-- A filter that may be absent. -/
def matchesOr (absent : Bool) (filter : Option (Matcher S)) (name : Str) : Work Bool :=
  match filter with
  | none => pure absent
  | some f => matchesAny S name f

/-! ## 2. Names -/

/-- `qualified_name`: the base name and the id of a name the pipeline made. -/
def qualifiedName (name : Str) : Option (Str × Str) := do
  let (base, qualified) ← Labels.rsplitText [' ', '['] name
  let (id, suffix) ← splitOnce ']' qualified
  if suffix.isEmpty then some (base, id)
  else do
    let number ← stripPrefix [' '] suffix
    let counter ← parseUnsigned (2 ^ 64) number
    if counter < 2 || natText counter ≠ number then none else some (base, id)

/-- `adapter_type`. -/
def adapterType (n : Node) : Str :=
  let kind := match n.config with
    | .shadowTls _ _ inner _ => inner
    | _ => n.protocol
  match kind with
  | .tuicV5 => "tuic"
  | .hysteriaV1 => "hysteria"
  | kind => kind.asFilterKey

/-- `group[key].as_str()`. -/
def textOf (group : Json) (key : Str) : Option Str := (group.get key).bind Json.asStr

/-- The type a group has in Mihomo. -/
def groupAdapter (group : Json) : Str :=
  let kind := (textOf group "type").getD []
  if kind = "select" then "selector"
  else if kind = "url-test" then "urltest"
  else if kind = "load-balance" then "loadbalance"
  else kind

/-- The type a built-in policy has in Mihomo. -/
def policyAdapter (policy : Str) : Str :=
  if policy = "DIRECT" then "direct"
  else if policy = "COMPATIBLE" then "compatible"
  else if policy = "REJECT" then "reject"
  else if policy = "REJECT-DROP" then "rejectdrop"
  else if policy = "GLOBAL" then "selector"
  else "pass"

/-- `types`, in the order of insertion. -/
def typesOf (nodes : List PooledNode) (groups : List Json) : List (Str × Str) :=
  (nodes.map fun n => (n.node.displayName, adapterType n.node)) ++
    (groups.map fun g => ((textOf g "name").getD [], groupAdapter g)) ++
    clashPolicies.map fun p => (p, policyAdapter p)

/-- `types.contains_key(name)`. -/
def known (types : List (Str × Str)) (name : Str) : Bool := types.any fun t => t.1 = name

/-- The members a group lists. -/
def listedMembers (group : Json) : List Str :=
  (((group.get "proxies").bind Json.asArray).getD []).filterMap Json.asStr

/-- `wanted`: the members that name nothing. -/
def wantedNames (types : List (Str × Str)) (groups : List Json) : List Str :=
  ((groups.flatMap listedMembers).filter
    fun n => !known types n && !clashTokens.contains n).dedup

/-- `identities.get(id)`: the trimmed original name and the current one. -/
def identityOf (nodes : List PooledNode) (originalNames : List Str) (id : Str) :
    Option (Str × Str) :=
  ((nodes.zip originalNames).reverse.find? fun p => p.1.id.text = id).map
    fun p => (trim p.2, p.1.node.displayName)

/-- The current name of a node that a name made for it refers to. -/
def aliasOf (nodes : List PooledNode) (originalNames : List Str) (name : Str) : Option Str := do
  let (base, id) ← qualifiedName name
  let (original, current) ← identityOf nodes originalNames id
  if base = original then some current else none

/-- `aliases` and `unresolved`. -/
def resolveWanted (nodes : List PooledNode) (originalNames : List Str) :
    List Str → Work (List (Str × Str) × List Str)
  | [] => pure ([], [])
  | name :: rest => do
    visit S (byteLength name)
    let (aliases, unresolved) ← resolveWanted nodes originalNames rest
    return match aliasOf nodes originalNames name with
      | some current => ((name, current) :: aliases, unresolved)
      | none => (aliases, name :: unresolved)

/-! ## 3. Unavailable names -/

/-- `names.insert(name)`. -/
def addName (names : List Str) (name : Str) : List Str :=
  if names.contains name then names else names ++ [name]

/-- `qualified`: the wanted names of the form the pipeline makes, as id, base and name. -/
def qualifiedNames : List Str → Work (List (Str × Str × Str))
  | [] => pure []
  | name :: rest => do
    visit S (byteLength name)
    let others ← qualifiedNames rest
    return match qualifiedName name with
      | some (base, id) => (id, base, name) :: others
      | none => others

/-- The references to an unavailable entry. -/
def addReferences (original : Str) : List (Str × Str × Str) → List Str → Work (List Str)
  | [], names => pure names
  | (_, base, name) :: rest, names => do
    visit S (byteLength name)
    addReferences original rest (if base = trim original then addName names name else names)

/-- One entry of a page. -/
def scanEntry (wanted : List Str) (qualified : List (Str × Str × Str)) (names : List Str)
    (e : NodePoolEntry) : Work (List Str) := do
  let name := e.node.node.displayName
  visit S (byteLength name)
  if e.missingFromSource || !e.isActive then
    addReferences S name (qualified.filter fun q => q.1 = e.node.id.text)
      (if wanted.contains name then addName names name else names)
  else pure names

/-- Work between two queries. -/
def spend {α : Type} (w : Work α) (b : Budget) :
    ExceptT TemplateAppError PoolReader (α × Budget) :=
  match w.outcome b with
  | (.ok a, b') => pure (a, b')
  | (.error e, _) => PoolReader.ofExcept (.error e)

/-- The pages of `unavailable_names`. Every page starts past the cursor, so there are never more
    pages than ids. -/
def unavailablePages (wanted : List Str) (qualified : List (Str × Str × Str)) :
    Nat → Option NodeId → List Str → Budget → ExceptT TemplateAppError PoolReader (List Str × Budget)
  | 0, _, names, b => pure (names, b)
  | fuel + 1, cursor, names, b => do
    let (_, b) ← spend (visit S 0) b
    let entries ← ExceptT.lift (Program.perform (.listNodes .all cursor 1000))
    match entries.getLast? with
    | none => pure (names, b)
    | some last => do
      let (names, b) ← spend (entries.foldlM (scanEntry S wanted qualified) names) b
      if names.length = wanted.length then pure (names, b)
      else unavailablePages wanted qualified fuel (some last.node.id) names b

/-- `unavailable_names`. -/
def unavailableNames (wanted : List Str) (b : Budget) :
    ExceptT TemplateAppError PoolReader (List Str × Budget) :=
  if wanted.isEmpty then pure ([], b)
  else do
    let (qualified, b) ← spend (qualifiedNames S wanted) b
    unavailablePages S wanted qualified (2 ^ 128 + 1) none [] b

/-! ## 4. The members of a group -/

/-- What the groups of one run share. -/
structure Lookup where
  types : List (Str × Str)
  aliases : List (Str × Str)
  unavailable : List Str
  automatic : List Str

/-- `aliases.get(member)`. -/
def Lookup.aliasFor (L : Lookup) (member : Str) : Option Str :=
  (L.aliases.find? fun a => a.1 = member).map Prod.snd

/-- What a listed name stands for, or `none` if it is removed, with the notices. -/
def Lookup.resolve (L : Lookup) (group member : Str) :
    Except TemplateAppError (Option Str × List Str) :=
  let (name, notices) := match L.aliasFor member with
    | some current => (current, ["group '".toList ++ group ++ "': node reference '".toList ++
        member ++ "' resolved to '".toList ++ current ++ ['\'']])
    | none => (member, [])
  if known L.types name then .ok (some name, notices)
  else if L.unavailable.contains name then
    .ok (none, notices ++
      ["group '".toList ++ group ++ "': unavailable node '".toList ++ name ++ "' removed".toList])
  else Clash.invalid ("proxy-groups '".toList ++ group ++ "' references unavailable member '".toList ++
    name ++ ['\''])

/-- `append_nodes`; `seen` is the set of the members. -/
def appendNodes (included : Option (Matcher S)) : List Str → List Str → Work (List Str)
  | [], members => pure members
  | name :: rest, members => do
    visit S (byteLength name)
    let hit ← matchesOr S true included name
    appendNodes included rest (if hit then addName members name else members)

/-- The loop over the listed members: the members and the notices so far. -/
def expandMembers (L : Lookup) (group : Str) (included : Option (Matcher S)) :
    List Str → List Str → List Str → Work (List Str × List Str)
  | [], members, notices => pure (members, notices)
  | member :: rest, members, notices => do
    visit S (byteLength member)
    if member = "__PROXY_PROVIDERS__" then expandMembers L group included rest members notices
    else if member = "__PROXY_NODES__" then do
      let members ← appendNodes S included L.automatic members
      expandMembers L group included rest members notices
    else do
      let (resolved, more) ← Stateful.lift (L.resolve group member)
      expandMembers L group included rest
        (match resolved with
          | some name => addName members name
          | none => members)
        (notices ++ more)

/-- `automatic`. -/
def automaticNames (nodes : List PooledNode) : List Str :=
  (nodes.map fun n => n.node.displayName).insertionSort fun a b => compareStr a b ≠ .gt

/-- The part of `materialize` before the loop over the groups: what the groups share, and the
    budget that is left. -/
def buildLookup (groups : List Json) (nodes : List PooledNode) (originalNames : List Str) :
    ExceptT TemplateAppError PoolReader (Lookup × Budget) := do
  let types := typesOf nodes groups
  let ((aliases, unresolved), b) ←
    spend (resolveWanted S nodes originalNames (wantedNames types groups)) .new
  let (unavailable, b) ← unavailableNames S unresolved b
  return (⟨types, aliases, unavailable, automaticNames nodes⟩, b)

end DeveSub.ClashMembership
