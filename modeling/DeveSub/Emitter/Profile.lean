/-
  File:      DeveSub/Emitter/Profile.lean
  Subject:   The emitter the generation pipeline runs for each profile: `emit` of
             `template/generation.rs`, with the assembled template (`container/ir.rs`) and
             `emit_mihomo_full` (`container/mihomo_template.rs`).

  `serde_json` and the YAML crate are arguments. `nodeJson` is the derived serializer of a node.
-/
import DeveSub.Emitter.Uri
import DeveSub.Emitter.Mihomo
import DeveSub.Emitter.SingBox
import DeveSub.Emitter.V2Ray
import DeveSub.Compatibility.CheckNode

namespace DeveSub

/-- `GroupType`. -/
inductive GroupType where
  | select
  | urlTest
  | fallback
  | loadBalance
  | relay
  | direct
  | reject
  deriving DecidableEq

/-- The name Mihomo has for a group type. -/
def GroupType.text : GroupType → Str
  | .select => "select"
  | .urlTest => "url-test"
  | .fallback => "fallback"
  | .loadBalance => "load-balance"
  | .relay => "relay"
  | .direct => "direct"
  | .reject => "reject"

/-- `AssembledGroup`. -/
structure AssembledGroup where
  name : Str
  groupType : GroupType
  members : List Str

/-- `AssembledTemplate`, without `output`, which no emitter reads. -/
structure AssembledTemplate where
  clash : Option Str
  nodes : List Node
  groups : List AssembledGroup
  rules : List Json
  dns : Json
  tun : Json

/-- The third-party code the emitters call. `yamlRead` answers the members of the document's root,
    if it is a mapping. -/
structure EmitCrates where
  json : JsonCodec
  nodeJson : Node → Json
  yamlRead : Str → Except Str (Option (List (Str × Json)))
  yamlWrite : Json → Except Str Str

namespace Mihomo

/-- One proxy group. -/
def emitGroup (g : AssembledGroup) : Str :=
  "\n  - name: ".toList ++ yamlDq g.name ++ "\n    type: ".toList ++ g.groupType.text ++
    (if g.members.isEmpty then []
     else "\n    proxies:".toList ++ g.members.flatMap fun m => "\n      - ".toList ++ yamlDq m)

/-- A line break at the end, unless there is one. -/
def endLine (out : Str) : Str := if out.getLast? = some '\n' then out else out ++ ['\n']

/-- A section written by the YAML crate. -/
def yamlSection (crates : EmitCrates) (key : Str) (value : Json) : Except EmitError Str :=
  (crates.yamlWrite (.obj [(key, value)])).mapError .encode

/-- `emit_full` for a native routing template. -/
def emitClash (crates : EmitCrates) (config : Str) (nodes : List Node) : Except EmitError Str := do
  let root ← (crates.yamlRead config).mapError .encode
  let mapping ← okOr root (.encode "native routing template must be a mapping")
  let mapping := Json.removeMember "proxies" mapping
  let native ←
    if mapping.isEmpty then .ok []
    else (crates.yamlWrite (.obj mapping)).mapError .encode
  let proxies ← emit nodes
  .ok (endLine ((if native.isEmpty then [] else endLine native) ++ proxies))

/-- `emit_mihomo_full`. -/
def emitFull (crates : EmitCrates) (template : AssembledTemplate) : Except EmitError Str :=
  match template.clash with
  | some config => emitClash crates config template.nodes
  | none => do
      let out ← emit template.nodes
      let out :=
        if template.groups.isEmpty then out
        else out ++ "\nproxy-groups:".toList ++ template.groups.flatMap emitGroup
      let out ←
        if template.rules.isEmpty then .ok out
        else do
          let rules ← yamlSection crates "rules" (.arr template.rules)
          .ok (endLine out ++ rules)
      let out ←
        if template.dns.isNull then .ok out
        else do
          let dns ← yamlSection crates "dns" template.dns
          .ok (endLine out ++ dns)
      if template.tun.isNull then .ok out
      else do
        let tun ← yamlSection crates "tun" template.tun
        .ok (endLine out ++ tun)

end Mihomo

/-- `emit_json`: the nodes as their serializer writes them. -/
def emitJson (crates : EmitCrates) (nodes : List Node) : Except EmitError Str :=
  .ok (Json.arr (nodes.map crates.nodeJson)).pretty

/-- `emit` of the generation pipeline. -/
def emitProfile (crates : EmitCrates) (profile : ProfileKind) (template : AssembledTemplate) :
    Except EmitError Str :=
  match profile with
  | .mihomo => Mihomo.emitFull crates template
  | .singBox => SingBox.emit template.nodes
  | .xray => V2Ray.emitXrayCompatible template.nodes
  | .v2ray => V2Ray.emit template.nodes
  | .shadowrocket => emitShadowrocket crates.json template.nodes
  | .uriList => emitUriList crates.json template.nodes
  | .json => emitJson crates template.nodes

end DeveSub
