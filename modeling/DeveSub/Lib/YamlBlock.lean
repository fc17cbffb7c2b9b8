/-
  File:      DeveSub/Lib/YamlBlock.lean
  Subject:   Block documents: mappings and sequences of mappings, laid out by indentation.

  A document is a list of lines `key:` and `key: value`. `read` takes a text apart into lines
  and builds the value from their indentation; a key that stands twice in one mapping is an
  error, and so is one that the core schema resolves to something else than a string. `render`
  writes a layout (`Block`) whose scalars carry their own text. The main result is
  `read_render_iff`: a layout reads back as the value it stands for exactly when every key is a
  plain key, no mapping has a key twice and every scalar's text reads as that scalar's value.
-/
import DeveSub.Lib.YamlScalar

namespace DeveSub.Yaml

/-! ## 1. Lines -/

/-- A line `key:` or `key: value`, behind a dash or not. -/
structure Line (α : Type) where
  indent : Nat
  dash : Bool
  key : Str
  value : Option α

/-- The same line with another value behind its key. -/
def Line.map {α β : Type} (f : α → β) (l : Line α) : Line β :=
  ⟨l.indent, l.dash, l.key, l.value.map f⟩

/-- An implicit key that denotes a string: at most 1024 characters, plain in front of a colon, not
    ending in a blank and resolved to no null, Boolean or number; `<<` would merge a mapping. -/
def isKey (k : Str) : Bool :=
  isPlain (k ++ ":x".toList) && k.getLast?.any (fun c => !isBlank c) && isText k && k ≠ "<<".toList &&
    k.length ≤ 1024

/-- The text up to the first colon that a blank or the end follows, and the text behind it. -/
def splitKey : Str → Option (Str × Option Str)
  | [] => none
  | [':'] => some ([], none)
  | ':' :: ' ' :: r => some ([], some r)
  | c :: cs => (splitKey cs).map fun p => (c :: p.1, p.2)

/-- A key and the value behind it. -/
def readEntry (indent : Nat) (dash : Bool) (s : Str) : Option (Line Yaml) := do
  let (key, value) ← splitKey s
  if isKey key then
    match value with
    | none => some ⟨indent, dash, key, none⟩
    | some t => (readInline t).map fun v => ⟨indent, dash, key, some v⟩
  else none

/-- One line of a document. -/
def readLine (s : Str) : Option (Line Yaml) :=
  let indent := (s.takeWhile fun c => c = ' ').length
  match s.dropWhile fun c => c = ' ' with
  | '-' :: ' ' :: r => readEntry indent true r
  | r => readEntry indent false r

/-! ## 2. From lines to a value -/

/-- A mapping, unless a key stands in it twice. -/
def asMap (members : List (Str × Yaml)) : Option Yaml :=
  if (members.map Prod.fst).Nodup then some (.map members) else none

mutual

/-- The members of a mapping at indentation `n`, up to the first line that stands further left. -/
def readMembers : Nat → Nat → List (Line Yaml) → Option (List (Str × Yaml) × List (Line Yaml))
  | _, _, [] => some ([], [])
  | 0, _, _ :: _ => none
  | fuel + 1, n, l :: ls =>
      if l.indent < n then some ([], l :: ls)
      else if l.indent = n ∧ l.dash = false then
        match l.value with
        | some v => do
            let (ms, rest) ← readMembers fuel n ls
            some ((l.key, v) :: ms, rest)
        | none => do
            let (v, rest) ← readChild fuel n ls
            let (ms, rest') ← readMembers fuel n rest
            some ((l.key, v) :: ms, rest')
      else none

/-- What stands below a key at indentation `n`; nothing there is null. -/
def readChild : Nat → Nat → List (Line Yaml) → Option (Yaml × List (Line Yaml))
  | _, _, [] => some (.null, [])
  | 0, _, _ :: _ => none
  | fuel + 1, n, l :: ls =>
      if l.indent ≤ n then some (.null, l :: ls)
      else if l.dash then do
        let (items, rest) ← readItems fuel l.indent (l :: ls)
        some (.seq items, rest)
      else do
        let (ms, rest) ← readMembers fuel l.indent (l :: ls)
        let v ← asMap ms
        some (v, rest)

/-- The items of a sequence whose dashes stand at indentation `n`. -/
def readItems : Nat → Nat → List (Line Yaml) → Option (List Yaml × List (Line Yaml))
  | _, _, [] => some ([], [])
  | 0, _, _ :: _ => none
  | fuel + 1, n, l :: ls =>
      if l.indent < n then some ([], l :: ls)
      else if l.indent = n ∧ l.dash = true then do
        let (ms, rest) ← readMembers fuel (n + 2) (⟨n + 2, false, l.key, l.value⟩ :: ls)
        let v ← asMap ms
        let (items, rest') ← readItems fuel n rest
        some (v :: items, rest')
      else none

end

/-- **A document whose top is a mapping.** Three calls are enough for each line. -/
def read (text : Str) : Option Yaml := do
  let lines ← (text.splitOn '\n').mapM readLine
  let (members, rest) ← readMembers (3 * lines.length) 0 lines
  if rest.isEmpty then asMap members else none

/-! ## 3. Layouts -/

/-- A layout: what stands behind or below a key. An item of a sequence has a first member. -/
inductive Block (α : Type) where
  | scalar (a : α)
  | map (members : List (Str × Block α))
  | seq (items : List (Str × Block α × List (Str × Block α)))

namespace Block

variable {α : Type}

/-- What stands on the line of the key. -/
def inline : Block α → Option α
  | .scalar a => some a
  | .map _ | .seq _ => none

mutual

/-- The lines below a key at indentation `n`. -/
def linesBelow (n : Nat) : Block α → List (Line α)
  | .scalar _ => []
  | .map ms => memberLines (n + 2) ms
  | .seq is => itemLines (n + 2) is

/-- The lines of a mapping at indentation `n`. -/
def memberLines (n : Nat) : List (Str × Block α) → List (Line α)
  | [] => []
  | (k, b) :: ms => ⟨n, false, k, b.inline⟩ :: (linesBelow n b ++ memberLines n ms)

/-- The lines of a sequence whose dashes stand at indentation `n`. -/
def itemLines (n : Nat) : List (Str × Block α × List (Str × Block α)) → List (Line α)
  | [] => []
  | (k, b, ms) :: is =>
      ⟨n, true, k, b.inline⟩ :: (linesBelow (n + 2) b ++ (memberLines (n + 2) ms ++ itemLines n is))

end

mutual

/-- The value a layout stands for, by the value of its scalars. A key with nothing below it
    stands for null. -/
def value (val : α → Yaml) : Block α → Yaml
  | .scalar a => val a
  | .map [] => .null
  | .map (m :: ms) => .map (memberValues val (m :: ms))
  | .seq [] => .null
  | .seq (i :: is) => .seq (itemValues val (i :: is))

/-- The values of the members of a mapping. -/
def memberValues (val : α → Yaml) : List (Str × Block α) → List (Str × Yaml)
  | [] => []
  | (k, b) :: ms => (k, value val b) :: memberValues val ms

/-- The values of the items of a sequence. -/
def itemValues (val : α → Yaml) : List (Str × Block α × List (Str × Block α)) → List Yaml
  | [] => []
  | (k, b, ms) :: is => .map ((k, value val b) :: memberValues val ms) :: itemValues val is

end

mutual

/-- Whether no mapping below has a key twice. -/
def distinct : Block α → Bool
  | .scalar _ => true
  | .map ms => decide (ms.map Prod.fst).Nodup && membersDistinct ms
  | .seq is => itemsDistinct is

/-- Whether no mapping below the members has a key twice. -/
def membersDistinct : List (Str × Block α) → Bool
  | [] => true
  | (_, b) :: ms => distinct b && membersDistinct ms

/-- Whether no item, and no mapping below one, has a key twice. -/
def itemsDistinct : List (Str × Block α × List (Str × Block α)) → Bool
  | [] => true
  | (k, b, ms) :: is =>
      decide (k :: ms.map Prod.fst).Nodup && distinct b && membersDistinct ms && itemsDistinct is

end

mutual

/-- The scalars of a layout. -/
def scalars : Block α → List α
  | .scalar a => [a]
  | .map ms => memberScalars ms
  | .seq is => itemScalars is

/-- The scalars of the members of a mapping. -/
def memberScalars : List (Str × Block α) → List α
  | [] => []
  | (_, b) :: ms => scalars b ++ memberScalars ms

/-- The scalars of the items of a sequence. -/
def itemScalars : List (Str × Block α × List (Str × Block α)) → List α
  | [] => []
  | (_, b, ms) :: is => scalars b ++ (memberScalars ms ++ itemScalars is)

end

theorem map_fst_memberValues (val : α → Yaml) (ms : List (Str × Block α)) :
    (memberValues val ms).map Prod.fst = ms.map Prod.fst := by
  induction ms with
  | nil => rw [memberValues]; rfl
  | cons m ms ih =>
    obtain ⟨k, b⟩ := m
    rw [memberValues, List.map_cons, List.map_cons, ih]

/-- The members of a layout make a mapping when no key stands twice. -/
theorem asMap_memberValues (val : α → Yaml) (ms : List (Str × Block α)) :
    asMap (memberValues val ms) =
      if decide (ms.map Prod.fst).Nodup then some (.map (memberValues val ms)) else none := by
  unfold asMap
  rw [map_fst_memberValues]
  simp only [decide_eq_true_eq]

/-! ## 4. The lines of a layout build its value -/

section Build

variable (val : α → Yaml)

/-- The line of a key, with the scalars replaced by their values. -/
theorem map_head (n : Nat) (d : Bool) (k : Str) (b : Block α) :
    (⟨n, d, k, b.inline⟩ : Line α).map val = ⟨n, d, k, b.inline.map val⟩ := rfl

theorem inline_eq_some {b : Block α} {a : α} (h : b.inline = some a) : b = .scalar a := by
  cases b with
  | scalar a' => cases h; rfl
  | map ms => cases h
  | seq is => cases h

/-- Where the lines of a mapping start, they start at its indentation. -/
theorem indent_head_memberLines {n : Nat} (ms : List (Str × Block α)) {rest : List (Line Yaml)}
    (hrest : ∀ l ∈ rest.head?, l.indent < n) :
    ∀ l ∈ ((memberLines n ms).map (Line.map val) ++ rest).head?, l.indent ≤ n := by
  cases ms with
  | nil =>
    rw [memberLines]
    exact fun l hl => Nat.le_of_lt (hrest l hl)
  | cons m ms =>
    obtain ⟨k, b⟩ := m
    rw [memberLines]
    intro l hl
    cases hl
    exact Nat.le_refl n

theorem indent_head_itemLines {n : Nat} (is : List (Str × Block α × List (Str × Block α)))
    {rest : List (Line Yaml)} (hrest : ∀ l ∈ rest.head?, l.indent < n) :
    ∀ l ∈ ((itemLines n is).map (Line.map val) ++ rest).head?, l.indent < n + 2 := by
  cases is with
  | nil =>
    rw [itemLines]
    exact fun l hl => Nat.lt_of_lt_of_le (hrest l hl) (Nat.le_add_right n 2)
  | cons i is =>
    obtain ⟨k, b, ms⟩ := i
    rw [itemLines]
    intro l hl
    cases hl
    exact Nat.lt_add_of_pos_right (by decide)

/-- One member in front of others: it is read as what stands behind or below its key. -/
theorem readMembers_cons (k : Str) (b : Block α) (ms : List (Str × Block α)) (n fuel : Nat)
    (rest : List (Line Yaml))
    (hchild : b.inline = none →
      readChild fuel n ((linesBelow n b).map (Line.map val) ++
          ((memberLines n ms).map (Line.map val) ++ rest)) =
        if b.distinct then some (value val b, (memberLines n ms).map (Line.map val) ++ rest)
        else none)
    (hmore : readMembers fuel n ((memberLines n ms).map (Line.map val) ++ rest) =
      if membersDistinct ms then some (memberValues val ms, rest) else none) :
    readMembers (fuel + 1) n ((memberLines n ((k, b) :: ms)).map (Line.map val) ++ rest) =
      if membersDistinct ((k, b) :: ms) then some (memberValues val ((k, b) :: ms), rest)
      else none := by
  rw [memberLines, List.map_cons, List.cons_append, map_head, readMembers, if_neg (by simp),
    if_pos ⟨rfl, rfl⟩, List.map_append, List.append_assoc, membersDistinct, memberValues]
  cases hb : b.inline with
  | some a =>
    obtain rfl := inline_eq_some hb
    simp only [Option.map_some, linesBelow, List.map_nil, List.nil_append, hmore, distinct, value,
      Bool.true_and]
    cases membersDistinct ms <;> rfl
  | none =>
    simp only [Option.map_none, hchild hb]
    cases b.distinct with
    | false => rfl
    | true =>
      simp only [if_true, Option.bind_eq_bind, Option.bind_some, hmore, Bool.true_and]
      cases membersDistinct ms <;> rfl

mutual

/-- What stands below a key is read as its value, if no mapping in it has a key twice. -/
theorem readChild_linesBelow (b : Block α) (hb : b.inline = none) (n fuel : Nat)
    (rest : List (Line Yaml)) (hrest : ∀ l ∈ rest.head?, l.indent ≤ n)
    (hfuel : 3 * ((linesBelow n b).length + rest.length) + 2 ≤ fuel) :
    readChild fuel n ((linesBelow n b).map (Line.map val) ++ rest) =
      if b.distinct then some (value val b, rest) else none := by
  have nothing : ∀ fuel, 2 ≤ fuel → readChild fuel n rest = some (.null, rest) := by
    intro fuel hfuel
    cases rest with
    | nil => cases fuel <;> rfl
    | cons l ls =>
      obtain ⟨fuel, rfl⟩ : ∃ f, fuel = f + 1 := ⟨fuel - 1, by omega⟩
      rw [readChild, if_pos (hrest l rfl)]
  match b, hb with
  | .map [], _ =>
    rw [linesBelow, memberLines, List.map_nil, List.nil_append, nothing fuel (by omega)]
    simp [distinct, membersDistinct, value]
  | .seq [], _ =>
    rw [linesBelow, itemLines, List.map_nil, List.nil_append, nothing fuel (by omega)]
    simp [distinct, itemsDistinct, value]
  | .map ((k, c) :: ms), _ =>
    obtain ⟨fuel, rfl⟩ : ∃ f, fuel = f + 1 := ⟨fuel - 1, by omega⟩
    have hread := readMembers_memberLines ((k, c) :: ms) (n + 2) fuel rest
      (fun l hl => Nat.lt_of_le_of_lt (hrest l hl) (by omega)) (by rw [linesBelow] at hfuel; omega)
    rw [linesBelow]
    rw [memberLines, List.map_cons, List.cons_append] at hread ⊢
    rw [readChild, if_neg (by simp [Line.map]), if_neg (by simp [Line.map])]
    simp only [map_head] at hread ⊢
    rw [hread]
    rw [distinct]
    cases membersDistinct ((k, c) :: ms) with
    | false => simp
    | true =>
      simp only [if_true, Option.bind_eq_bind, Option.bind_some, asMap_memberValues, Bool.and_true]
      cases decide (((k, c) :: ms).map Prod.fst).Nodup with
      | false => rfl
      | true => rw [value]; rfl
  | .seq ((k, c, ms) :: is), _ =>
    obtain ⟨fuel, rfl⟩ : ∃ f, fuel = f + 1 := ⟨fuel - 1, by omega⟩
    have hread := readItems_itemLines ((k, c, ms) :: is) (n + 2) fuel rest
      (fun l hl => Nat.lt_of_le_of_lt (hrest l hl) (by omega)) (by rw [linesBelow] at hfuel; omega)
    rw [linesBelow]
    rw [itemLines, List.map_cons, List.cons_append] at hread ⊢
    rw [readChild, if_neg (by simp [Line.map]), if_pos (by simp [Line.map])]
    simp only [map_head] at hread ⊢
    rw [hread]
    rw [distinct]
    cases itemsDistinct ((k, c, ms) :: is) with
    | false => rfl
    | true => rw [value]; rfl

/-- **The lines of a mapping are read as its members**, if no mapping below has a key twice. -/
theorem readMembers_memberLines (ms : List (Str × Block α)) (n fuel : Nat)
    (rest : List (Line Yaml)) (hrest : ∀ l ∈ rest.head?, l.indent < n)
    (hfuel : 3 * ((memberLines n ms).length + rest.length) ≤ fuel) :
    readMembers fuel n ((memberLines n ms).map (Line.map val) ++ rest) =
      if membersDistinct ms then some (memberValues val ms, rest) else none := by
  match ms with
  | [] =>
    rw [memberLines, List.map_nil, List.nil_append]
    simp only [membersDistinct, memberValues, if_true]
    cases rest with
    | nil => cases fuel <;> rfl
    | cons l ls =>
      simp only [memberLines, List.length_nil, List.length_cons] at hfuel
      obtain ⟨fuel, rfl⟩ : ∃ f, fuel = f + 1 := ⟨fuel - 1, by omega⟩
      rw [readMembers, if_pos (hrest l rfl)]
  | (k, b) :: ms =>
    rw [memberLines] at hfuel
    simp only [List.length_cons, List.length_append] at hfuel
    obtain ⟨fuel, rfl⟩ : ∃ f, fuel = f + 1 := ⟨fuel - 1, by omega⟩
    refine readMembers_cons val k b ms n fuel rest (fun hb => ?_) ?_
    · exact readChild_linesBelow b hb n fuel _ (indent_head_memberLines val ms hrest)
        (by simp only [List.length_append, List.length_map]; omega)
    · exact readMembers_memberLines ms n fuel rest hrest (by omega)

/-- The lines of a sequence are read as its items, if no mapping has a key twice. -/
theorem readItems_itemLines (is : List (Str × Block α × List (Str × Block α))) (n fuel : Nat)
    (rest : List (Line Yaml)) (hrest : ∀ l ∈ rest.head?, l.indent < n)
    (hfuel : 3 * ((itemLines n is).length + rest.length) + 1 ≤ fuel) :
    readItems fuel n ((itemLines n is).map (Line.map val) ++ rest) =
      if itemsDistinct is then some (itemValues val is, rest) else none := by
  match is with
  | [] =>
    rw [itemLines, List.map_nil, List.nil_append]
    simp only [itemsDistinct, itemValues, if_true]
    cases rest with
    | nil => cases fuel <;> rfl
    | cons l ls =>
      obtain ⟨fuel, rfl⟩ : ∃ f, fuel = f + 1 := ⟨fuel - 1, by omega⟩
      rw [readItems, if_pos (hrest l rfl)]
  | (k, b, ms) :: is =>
    rw [itemLines] at hfuel
    simp only [List.length_cons, List.length_append] at hfuel
    obtain ⟨fuel, rfl⟩ : ∃ f, fuel = f + 2 := ⟨fuel - 2, by omega⟩
    have hmore := readItems_itemLines is n (fuel + 1) rest hrest (by omega)
    have hstop := indent_head_itemLines val is hrest
    -- Without its dash, the first line of an item heads the lines of a mapping.
    have hitem := readMembers_cons val k b ms (n + 2) fuel
      ((itemLines n is).map (Line.map val) ++ rest)
      (fun hb => readChild_linesBelow b hb (n + 2) fuel _ (indent_head_memberLines val ms hstop)
        (by simp only [List.length_append, List.length_map]; omega))
      (readMembers_memberLines ms (n + 2) fuel _ hstop
        (by simp only [List.length_append, List.length_map]; omega))
    rw [memberLines, List.map_cons, List.cons_append, map_head, List.map_append,
      List.append_assoc] at hitem
    rw [itemLines, List.map_cons, List.cons_append, map_head, readItems, if_neg (by simp),
      if_pos ⟨rfl, rfl⟩, List.map_append, List.map_append, List.append_assoc, List.append_assoc,
      hitem, itemsDistinct, itemValues, membersDistinct]
    cases b.distinct with
    | false => simp
    | true =>
      cases membersDistinct ms with
      | false => simp
      | true =>
        simp only [Bool.and_true, if_true, Option.bind_eq_bind, Option.bind_some,
          asMap_memberValues, hmore]
        rw [List.map_cons]
        cases decide (k :: ms.map Prod.fst).Nodup with
        | false => simp
        | true => cases itemsDistinct is <;> simp [memberValues]

end

end Build

/-! ## 5. The keys of a value are those of its lines -/

/-- Lines whose values have no keys. -/
def Bare (ls : List (Line Yaml)) : Prop := ∀ l ∈ ls, ∀ v ∈ l.value, v.keys = []

theorem asMap_some {ms : List (Str × Yaml)} {v : Yaml} (h : asMap ms = some v) :
    v = .map ms ∧ (ms.map Prod.fst).Nodup := by
  simp only [asMap, Option.ite_none_right_eq_some, Option.some.injEq] at h
  exact ⟨h.2.symm, h.1⟩

/-- The lines start with the keys `ks`, and bare lines follow. -/
def Gives (ls : List (Line Yaml)) (ks : List Str) (rest : List (Line Yaml)) : Prop :=
  ls.map Line.key = ks ++ rest.map Line.key ∧ Bare rest

theorem Gives.nil {ls : List (Line Yaml)} (h : Bare ls) : Gives ls [] ls := ⟨rfl, h⟩

theorem Gives.cons {l : Line Yaml} {ls rest : List (Line Yaml)} {ks : List Str}
    (h : Gives ls ks rest) : Gives (l :: ls) (l.key :: ks) rest :=
  ⟨congrArg (l.key :: ·) h.1, h.2⟩

theorem Gives.append {ls mid rest : List (Line Yaml)} {ks ks' : List Str} (h : Gives ls ks mid)
    (h' : Gives mid ks' rest) : Gives ls (ks ++ ks') rest :=
  ⟨by rw [h.1, h'.1, List.append_assoc], h'.2⟩

/-- What the readers make of bare lines has the keys of the lines it was read from. -/
structure KeysOfLines (fuel : Nat) : Prop where
  members : ∀ {n ls ms rest}, Bare ls → readMembers fuel n ls = some (ms, rest) →
    Gives ls (memberKeys ms) rest
  child : ∀ {n ls v rest}, Bare ls → readChild fuel n ls = some (v, rest) → Gives ls v.keys rest
  items : ∀ {n ls vs rest}, Bare ls → readItems fuel n ls = some (vs, rest) →
    Gives ls (itemKeys vs) rest

section Readers

variable {fuel n : Nat} (ih : KeysOfLines fuel) {l : Line Yaml} {ls rest : List (Line Yaml)}
  (hbare : Bare (l :: ls))

include ih hbare

theorem KeysOfLines.members_cons {ms : List (Str × Yaml)}
    (h : readMembers (fuel + 1) n (l :: ls) = some (ms, rest)) :
    Gives (l :: ls) (memberKeys ms) rest := by
  have hls : Bare ls := fun l' hl' => hbare l' (List.mem_cons_of_mem l hl')
  simp only [readMembers] at h
  split at h
  · cases h
    exact .nil hbare
  · split at h
    · split at h
      · rename_i v hv
        simp only [Option.bind_eq_bind, Option.bind_eq_some_iff] at h
        obtain ⟨⟨ms', rest'⟩, hms, h⟩ := h
        cases h
        rw [memberKeys, hbare l List.mem_cons_self v hv]
        exact (ih.members hls hms).cons
      · simp only [Option.bind_eq_bind, Option.bind_eq_some_iff] at h
        obtain ⟨⟨v, rest'⟩, hv, ⟨ms', rest''⟩, hms, h⟩ := h
        cases h
        have hchild := ih.child hls hv
        exact (hchild.append (ih.members hchild.2 hms)).cons
    · cases h

theorem KeysOfLines.child_cons {v : Yaml}
    (h : readChild (fuel + 1) n (l :: ls) = some (v, rest)) : Gives (l :: ls) v.keys rest := by
  simp only [readChild] at h
  split at h
  · cases h
    exact .nil hbare
  · split at h
    · simp only [Option.bind_eq_bind, Option.bind_eq_some_iff] at h
      obtain ⟨⟨items, rest'⟩, hitems, h⟩ := h
      cases h
      exact ih.items hbare hitems
    · simp only [Option.bind_eq_bind, Option.bind_eq_some_iff] at h
      obtain ⟨⟨ms, rest'⟩, hms, v', hv, h⟩ := h
      cases h
      rw [(asMap_some hv).1]
      exact ih.members hbare hms

theorem KeysOfLines.items_cons {vs : List Yaml}
    (h : readItems (fuel + 1) n (l :: ls) = some (vs, rest)) :
    Gives (l :: ls) (itemKeys vs) rest := by
  simp only [readItems] at h
  split at h
  · cases h
    exact .nil hbare
  · split at h
    · simp only [Option.bind_eq_bind, Option.bind_eq_some_iff] at h
      obtain ⟨⟨ms, rest'⟩, hms, v', hv, ⟨items, rest''⟩, hitems, h⟩ := h
      cases h
      -- the first line without its dash is as bare as it was, and has the same key
      have hfirst : Bare (⟨n + 2, false, l.key, l.value⟩ :: ls) :=
        List.forall_mem_cons.mpr (List.forall_mem_cons.mp hbare)
      have hmembers := ih.members hfirst hms
      rw [(asMap_some hv).1]
      exact hmembers.append (ih.items hmembers.2 hitems)
    · cases h

end Readers

/-- **Every line gives exactly one key.** The induction is on the fuel, for the members of a
    mapping, what stands below a key and the items of a sequence at once. -/
theorem keys_of_lines (fuel : Nat) : KeysOfLines fuel := by
  induction fuel with
  | zero => constructor <;> intro n ls _ rest hbare h <;> cases ls <;> cases h <;> exact .nil hbare
  | succ fuel ih =>
    constructor <;> intro n ls _ rest hbare h <;> cases ls
    case members.cons => exact ih.members_cons hbare h
    case child.cons => exact ih.child_cons hbare h
    case items.cons => exact ih.items_cons hbare h
    all_goals
      cases h
      exact .nil hbare

mutual

/-- The keys of a layout, in the order of its lines. -/
def layoutKeys : Block α → List Str
  | .scalar _ => []
  | .map ms => memberLayoutKeys ms
  | .seq is => itemLayoutKeys is

/-- The keys of the members of a mapping and below them. -/
def memberLayoutKeys : List (Str × Block α) → List Str
  | [] => []
  | (k, b) :: ms => k :: (layoutKeys b ++ memberLayoutKeys ms)

/-- The keys of the items of a sequence and below them. -/
def itemLayoutKeys : List (Str × Block α × List (Str × Block α)) → List Str
  | [] => []
  | (k, b, ms) :: is => k :: (layoutKeys b ++ (memberLayoutKeys ms ++ itemLayoutKeys is))

end

mutual

theorem map_key_linesBelow (n : Nat) (b : Block α) :
    (linesBelow n b).map Line.key = layoutKeys b := by
  match b with
  | .scalar a => rw [linesBelow, layoutKeys, List.map_nil]
  | .map ms => rw [linesBelow, layoutKeys, map_key_memberLines (n + 2) ms]
  | .seq is => rw [linesBelow, layoutKeys, map_key_itemLines (n + 2) is]

theorem map_key_memberLines (n : Nat) (ms : List (Str × Block α)) :
    (memberLines n ms).map Line.key = memberLayoutKeys ms := by
  match ms with
  | [] => rw [memberLines, memberLayoutKeys, List.map_nil]
  | (k, b) :: ms =>
    rw [memberLines, memberLayoutKeys, List.map_cons, List.map_append, map_key_linesBelow n b,
      map_key_memberLines n ms]

theorem map_key_itemLines (n : Nat) (is : List (Str × Block α × List (Str × Block α))) :
    (itemLines n is).map Line.key = itemLayoutKeys is := by
  match is with
  | [] => rw [itemLines, itemLayoutKeys, List.map_nil]
  | (k, b, ms) :: is =>
    rw [itemLines, itemLayoutKeys, List.map_cons, List.map_append, List.map_append,
      map_key_linesBelow (n + 2) b, map_key_memberLines (n + 2) ms, map_key_itemLines n is]

end

mutual

/-- A layout whose scalars have no keys stands for a value with the layout's keys. -/
theorem keys_value (val : α → Yaml) (b : Block α) (h : ∀ a ∈ scalars b, (val a).keys = []) :
    (value val b).keys = layoutKeys b := by
  match b with
  | .scalar a =>
    rw [value, layoutKeys]
    exact h a (by simp [scalars])
  | .map [] => rw [value, layoutKeys, memberLayoutKeys, keys]
  | .map (m :: ms) =>
    rw [scalars] at h
    rw [value, layoutKeys, keys, memberKeys_memberValues val (m :: ms) h]
  | .seq [] => rw [value, layoutKeys, itemLayoutKeys, keys]
  | .seq (i :: is) =>
    rw [scalars] at h
    rw [value, layoutKeys, keys, itemKeys_itemValues val (i :: is) h]

theorem memberKeys_memberValues (val : α → Yaml) (ms : List (Str × Block α))
    (h : ∀ a ∈ memberScalars ms, (val a).keys = []) :
    memberKeys (memberValues val ms) = memberLayoutKeys ms := by
  match ms with
  | [] => rw [memberValues, memberLayoutKeys, memberKeys]
  | (k, b) :: ms =>
    rw [memberScalars, List.forall_mem_append] at h
    rw [memberValues, memberLayoutKeys, memberKeys, keys_value val b h.1,
      memberKeys_memberValues val ms h.2]

theorem itemKeys_itemValues (val : α → Yaml) (is : List (Str × Block α × List (Str × Block α)))
    (h : ∀ a ∈ itemScalars is, (val a).keys = []) :
    itemKeys (itemValues val is) = itemLayoutKeys is := by
  match is with
  | [] => rw [itemValues, itemLayoutKeys, itemKeys]
  | (k, b, ms) :: is =>
    rw [itemScalars, List.forall_mem_append, List.forall_mem_append] at h
    rw [itemValues, itemLayoutKeys, itemKeys, keys, memberKeys, keys_value val b h.1,
      memberKeys_memberValues val ms h.2.1, itemKeys_itemValues val is h.2.2, List.cons_append,
      List.append_assoc]

end

/-! ## 6. A layout's value determines the value of each scalar -/

mutual

theorem scalars_of_value_eq {val val' : α → Yaml} (b : Block α) (h : value val b = value val' b) :
    ∀ a ∈ scalars b, val a = val' a := by
  match b with
  | .scalar a =>
    rw [value, value] at h
    simpa [scalars] using h
  | .map [] => simp [scalars, memberScalars]
  | .map (m :: ms) =>
    rw [value, value, Yaml.map.injEq] at h
    rw [scalars]
    exact scalars_of_memberValues_eq (m :: ms) h
  | .seq [] => simp [scalars, itemScalars]
  | .seq (i :: is) =>
    rw [value, value, Yaml.seq.injEq] at h
    rw [scalars]
    exact scalars_of_itemValues_eq (i :: is) h

theorem scalars_of_memberValues_eq {val val' : α → Yaml} (ms : List (Str × Block α))
    (h : memberValues val ms = memberValues val' ms) : ∀ a ∈ memberScalars ms, val a = val' a := by
  match ms with
  | [] => simp [memberScalars]
  | (k, b) :: ms =>
    simp only [memberValues, List.cons.injEq, Prod.mk.injEq, true_and] at h
    rw [memberScalars, List.forall_mem_append]
    exact ⟨scalars_of_value_eq b h.1, scalars_of_memberValues_eq ms h.2⟩

theorem scalars_of_itemValues_eq {val val' : α → Yaml}
    (is : List (Str × Block α × List (Str × Block α)))
    (h : itemValues val is = itemValues val' is) : ∀ a ∈ itemScalars is, val a = val' a := by
  match is with
  | [] => simp [itemScalars]
  | (k, b, ms) :: is =>
    simp only [itemValues, List.cons.injEq, Yaml.map.injEq, Prod.mk.injEq, true_and] at h
    rw [itemScalars, List.forall_mem_append, List.forall_mem_append]
    exact ⟨scalars_of_value_eq b h.1.1, scalars_of_memberValues_eq ms h.1.2,
      scalars_of_itemValues_eq is h.2⟩

end

mutual

theorem filterMap_value_linesBelow (n : Nat) (b : Block α) :
    b.inline.toList ++ (linesBelow n b).filterMap Line.value = scalars b := by
  match b with
  | .scalar a => rw [linesBelow, scalars, inline]; rfl
  | .map ms => rw [linesBelow, scalars, inline, filterMap_value_memberLines (n + 2) ms]; rfl
  | .seq is => rw [linesBelow, scalars, inline, filterMap_value_itemLines (n + 2) is]; rfl

/-- The values on the lines of a mapping are its scalars. -/
theorem filterMap_value_memberLines (n : Nat) (ms : List (Str × Block α)) :
    (memberLines n ms).filterMap Line.value = memberScalars ms := by
  match ms with
  | [] => rw [memberLines, memberScalars, List.filterMap_nil]
  | (k, b) :: ms =>
    rw [memberLines, memberScalars, ← filterMap_value_linesBelow n b,
      ← filterMap_value_memberLines n ms, List.append_assoc, ← List.filterMap_append]
    cases b.inline <;> simp

theorem filterMap_value_itemLines (n : Nat)
    (is : List (Str × Block α × List (Str × Block α))) :
    (itemLines n is).filterMap Line.value = itemScalars is := by
  match is with
  | [] => rw [itemLines, itemScalars, List.filterMap_nil]
  | (k, b, ms) :: is =>
    rw [itemLines, itemScalars, ← filterMap_value_linesBelow (n + 2) b,
      ← filterMap_value_memberLines (n + 2) ms, ← filterMap_value_itemLines n is,
      List.append_assoc, ← List.filterMap_append, ← List.filterMap_append]
    cases b.inline <;> simp

end

end Block

/-! ## 7. Text -/

/-- What follows the colon of a line. -/
def behindKey : Option Str → Str
  | some t => ' ' :: t
  | none => []

/-- The text of a line whose value is written as it is. -/
def Line.text (l : Line Str) : Str :=
  List.replicate l.indent ' ' ++
    ((if l.dash then ['-', ' '] else []) ++ (l.key ++ ':' :: behindKey l.value))

/-- **The text of a layout**, by the text of its scalars. -/
def render {α : Type} (text : α → Str) (ms : List (Str × Block α)) : Str :=
  ['\n'].intercalate ((Block.memberLines 0 ms).map fun l => (l.map text).text)

theorem splitKey_cons {c : Char} {cs : Str} (h : c = ':' → startsSolid cs = true) :
    splitKey (c :: cs) = (splitKey cs).map fun p => (c :: p.1, p.2) := by
  rw [splitKey]
  · rintro rfl rfl
    exact absurd (h rfl) (by decide)
  · rintro r rfl rfl
    exact absurd (h rfl) Bool.false_ne_true

theorem startsSolid_colon (k r s : Str) : startsSolid (k ++ ':' :: r) = startsSolid (k ++ ':' :: s) := by
  cases k <;> rfl

/-- Behind a plain key comes the first colon that a blank or the end follows. -/
theorem splitKey_append {white : Bool} {k : Str} (h : plainTail white (k ++ ":x".toList) = true)
    {rest : Str}
    (hrest : rest = [] ∨ ∃ t, rest = ' ' :: t) :
    splitKey (k ++ ':' :: rest) = some (k, rest.tail?) := by
  induction k generalizing white with
  | nil =>
    rcases hrest with rfl | ⟨t, rfl⟩
    · rfl
    · rfl
  | cons c k ih =>
    simp only [List.cons_append, plainTail] at h
    have htail : ∃ w, plainTail w (k ++ ":x".toList) = true := by
      split at h
      · exact ⟨_, h⟩
      · exact ⟨_, (Bool.and_eq_true_iff.mp h).2⟩
    obtain ⟨w, hw⟩ := htail
    have hsolid : c = ':' → startsSolid (k ++ ':' :: rest) = true := by
      rintro rfl
      rw [if_neg (by decide)] at h
      rw [startsSolid_colon k rest "x".toList]
      simpa using (Bool.and_eq_true_iff.mp (Bool.and_eq_true_iff.mp h).1).2
    rw [List.cons_append, splitKey_cons hsolid, ih hw]
    rfl

theorem isPlain_of_isKey {k : Str} (hk : isKey k = true) : isPlain (k ++ ":x".toList) = true ∧ k ≠ [] := by
  simp only [isKey, Bool.and_eq_true] at hk
  refine ⟨hk.1.1.1.1, ?_⟩
  rintro rfl
  cases hk.1.1.1.2

theorem readEntry_text (indent : Nat) (dash : Bool) {k : Str} (hk : isKey k = true)
    (value : Option Str) :
    readEntry indent dash (k ++ ':' :: behindKey value) =
      match value with
      | none => some ⟨indent, dash, k, none⟩
      | some t => (readInline t).map fun v => ⟨indent, dash, k, some v⟩ := by
  have hplain := plainTail_of_isPlain (isPlain_of_isKey hk).1
  cases value with
  | none =>
    simp only [readEntry, behindKey, splitKey_append hplain (.inl rfl)]
    simp [hk]
  | some t =>
    simp only [readEntry, behindKey, splitKey_append hplain (.inr ⟨t, rfl⟩)]
    simp [hk]

/-- A plain key starts with no blank, and with no dash that a blank follows. -/
theorem isKey_head {k : Str} (hk : isKey k = true) :
    ∃ c cs, k = c :: cs ∧ c ≠ ' ' ∧ (c = '-' → startsSolid (cs ++ ":x".toList) = true) := by
  obtain ⟨hplain, hne⟩ := isPlain_of_isKey hk
  cases k with
  | nil => exact absurd rfl hne
  | cons c cs =>
    simp only [List.cons_append, isPlain, Bool.and_eq_true, Bool.or_eq_true] at hplain
    refine ⟨c, cs, rfl, ?_, ?_⟩
    · rintro rfl
      exact absurd hplain.1.1 (by decide)
    · rintro rfl
      rcases hplain.1.2 with hind | hnext
      · exact absurd hind (by decide)
      · exact hnext.2

/-- **A line with a plain key is read as what stands behind the key.** -/
theorem readLine_text (l : Line Str) (hk : isKey l.key = true) :
    readLine l.text =
      match l.value with
      | none => some ⟨l.indent, l.dash, l.key, none⟩
      | some t => (readInline t).map fun v => ⟨l.indent, l.dash, l.key, some v⟩ := by
  obtain ⟨indent, dash, k, value⟩ := l
  obtain ⟨c, cs, hkey, hc, hdash⟩ := isKey_head hk
  dsimp only at hk hkey ⊢
  have hspaces : ∀ (d : Char) (r : Str), d ≠ ' ' →
      (List.replicate indent ' ' ++ d :: r).takeWhile (fun c => c = ' ') =
        List.replicate indent ' ' ∧
      (List.replicate indent ' ' ++ d :: r).dropWhile (fun c => c = ' ') = d :: r := by
    intro d r hd
    constructor
    · rw [List.takeWhile_append_of_pos (by simp)]
      simp [hd]
    · rw [List.dropWhile_append_of_pos (by simp)]
      simp [hd]
  rw [← readEntry_text indent dash hk value]
  unfold readLine Line.text
  cases dash with
  | true =>
    obtain ⟨htake, hdrop⟩ := hspaces '-' (' ' :: (k ++ ':' :: behindKey value)) (by decide)
    simp only [if_true, List.cons_append, List.nil_append]
    rw [htake, hdrop, List.length_replicate]
    rfl
  | false =>
    subst hkey
    obtain ⟨htake, hdrop⟩ := hspaces c (cs ++ ':' :: behindKey value) hc
    simp only [Bool.false_eq_true, if_false, List.cons_append, List.nil_append]
    rw [htake, hdrop, List.length_replicate]
    split
    · rename_i r heq
      -- A key that starts like an item would have a blank behind its dash.
      rw [List.cons.injEq] at heq
      have hsolid := hdash heq.1
      cases cs with
      | nil => exact absurd (List.cons.inj heq.2).1 (by decide)
      | cons d cs =>
        rw [List.cons_append, List.cons.injEq] at heq
        rw [List.cons_append, startsSolid, heq.2.1] at hsolid
        exact absurd hsolid (by decide)
    · rfl

theorem isKey_of_readEntry {indent : Nat} {dash : Bool} {s : Str} {l : Line Yaml}
    (h : readEntry indent dash s = some l) :
    isKey l.key = true ∧ ∀ v ∈ l.value, v.keys = [] := by
  simp only [readEntry, Option.bind_eq_bind, Option.bind_eq_some_iff] at h
  obtain ⟨⟨key, value⟩, _, h⟩ := h
  simp only [Option.ite_none_right_eq_some] at h
  obtain ⟨hkey, h⟩ := h
  split at h
  · cases h
    exact ⟨hkey, fun v hv => absurd hv (by simp)⟩
  · obtain ⟨v, hv, rfl⟩ := Option.map_eq_some_iff.mp h
    refine ⟨hkey, fun w hw => ?_⟩
    cases hw
    exact keys_of_readInline hv

/-- A line that is read has a plain key, and a value without keys. -/
theorem isKey_of_readLine {s : Str} {l : Line Yaml} (h : readLine s = some l) :
    isKey l.key = true ∧ ∀ v ∈ l.value, v.keys = [] := by
  unfold readLine at h
  dsimp only at h
  split at h
  · exact isKey_of_readEntry h
  · exact isKey_of_readEntry h

/-! ## 8. Reading a rendered layout -/

theorem newline_not_mem_of_isKey {k : Str} (h : isKey k = true) : '\n' ∉ k := by
  have hnone := newline_not_mem_plainTail (plainTail_of_isPlain (isPlain_of_isKey h).1)
  exact fun hmem => hnone (List.mem_append_left _ hmem)

/-- A line has no line break when its key and its value have none. -/
theorem newline_not_mem_text {l : Line Str} (hk : '\n' ∉ l.key)
    (hv : ∀ t ∈ l.value, '\n' ∉ t) : '\n' ∉ l.text := by
  have hspaces : '\n' ∉ List.replicate l.indent ' ' := by
    intro h
    exact absurd (List.eq_of_mem_replicate h) (by decide)
  have hdash : '\n' ∉ (if l.dash then ['-', ' '] else []) := by
    split <;> decide
  have hbehind : '\n' ∉ behindKey l.value := by
    cases h : l.value with
    | none => exact List.not_mem_nil
    | some t => exact List.not_mem_cons_of_ne_of_not_mem (by decide) (hv t h)
  simp [Line.text, hspaces, hdash, hk, hbehind]

/-- Items that are read one by one, each as `out` says. -/
theorem mapM_eq_map {α β : Type} {xs : List α} {f : α → Option β} {out : α → β}
    (h : ∀ x ∈ xs, f x = some (out x)) : xs.mapM f = some (xs.map out) := by
  induction xs with
  | nil => rfl
  | cons x xs ih =>
    rw [List.mapM_cons, h x List.mem_cons_self,
      ih fun y hy => h y (List.mem_cons_of_mem x hy)]
    rfl

section Render

variable {α : Type} {text : α → Str} {val : α → Yaml} {ms : List (Str × Block α)}

/-- What a scalar's text reads as, null if it does not read. -/
def readOf (text : α → Str) (a : α) : Yaml := (readInline (text a)).getD .null

/-- A line of a layout whose scalar reads as `val` says is read as that line. -/
theorem readLine_map_text {l : Line α} (hk : isKey l.key = true)
    (hv : ∀ a ∈ l.value, readInline (text a) = some (val a)) :
    readLine (l.map text).text = some (l.map val) := by
  rw [readLine_text (l.map text) hk]
  obtain ⟨indent, dash, k, value⟩ := l
  cases value with
  | none => rfl
  | some a =>
    simp only [Line.map, Option.map_some, hv a rfl]

/-- Lines that are read with the keys they were written with are read as written. -/
theorem lines_of_mapM_readLine {ls : List (Line α)} {out : List (Line Yaml)}
    (h : (ls.map fun l => (l.map text).text).mapM readLine = some out)
    (hkeys : out.map Line.key = ls.map Line.key) :
    out = ls.map (Line.map (readOf text)) ∧
      ∀ l ∈ ls, isKey l.key = true ∧
        ∀ a ∈ l.value, readInline (text a) = some (readOf text a) := by
  induction ls generalizing out with
  | nil =>
    cases h
    exact ⟨rfl, fun l hl => absurd hl List.not_mem_nil⟩
  | cons l ls ih =>
    simp only [List.map_cons, List.mapM_cons, Option.bind_eq_bind, Option.bind_eq_some_iff] at h
    obtain ⟨o, ho, os, hos, h⟩ := h
    cases h
    rw [List.map_cons, List.map_cons, List.cons.injEq] at hkeys
    obtain ⟨hrest, hall⟩ := ih hos hkeys.2
    have hk : isKey l.key = true := hkeys.1 ▸ (isKey_of_readLine ho).1
    have hread : ∀ a ∈ l.value, readInline (text a) = some (readOf text a) := by
      intro a ha
      rw [readLine_text (l.map text) hk] at ho
      have hval : (l.map text).value = some (text a) := by
        rw [Line.map, Option.mem_def.mp ha]
        rfl
      rw [hval] at ho
      obtain ⟨v, hv, _⟩ := Option.map_eq_some_iff.mp ho
      rw [readOf, hv, Option.getD_some]
    have ho' : o = l.map (readOf text) :=
      Option.some.inj (ho.symm.trans (readLine_map_text hk hread))
    refine ⟨by rw [hrest, ho', List.map_cons], ?_⟩
    intro l' hl'
    rcases List.mem_cons.mp hl' with rfl | hl'
    · exact ⟨hk, hread⟩
    · exact hall l' hl'

theorem bare_of_mapM_readLine {ts : List Str} {out : List (Line Yaml)}
    (h : ts.mapM readLine = some out) : Block.Bare out ∧ out.length = ts.length := by
  induction ts generalizing out with
  | nil =>
    cases h
    exact ⟨fun l hl => absurd hl List.not_mem_nil, rfl⟩
  | cons t ts ih =>
    simp only [List.mapM_cons, Option.bind_eq_bind, Option.bind_eq_some_iff] at h
    obtain ⟨o, ho, os, hos, h⟩ := h
    cases h
    obtain ⟨hbare, hlength⟩ := ih hos
    refine ⟨?_, by rw [List.length_cons, List.length_cons, hlength]⟩
    intro l hl
    rcases List.mem_cons.mp hl with rfl | hl
    · exact (isKey_of_readLine ho).2
    · exact hbare l hl

theorem memberLines_ne_nil {n : Nat} (hne : ms ≠ []) : Block.memberLines n ms ≠ [] := by
  cases ms with
  | nil => exact absurd rfl hne
  | cons m ms =>
    rw [Block.memberLines]
    exact List.cons_ne_nil _ _

theorem isKey_of_mem_memberLines {n : Nat}
    (hkeys : ∀ k ∈ Block.memberLayoutKeys ms, isKey k = true) {l : Line α}
    (hl : l ∈ Block.memberLines n ms) : isKey l.key = true :=
  hkeys _ (Block.map_key_memberLines n ms ▸ List.mem_map_of_mem hl)

theorem mem_memberScalars_of_line {n : Nat} {l : Line α} (hl : l ∈ Block.memberLines n ms) {a : α}
    (ha : a ∈ l.value) : a ∈ Block.memberScalars ms :=
  Block.filterMap_value_memberLines n ms ▸ List.mem_filterMap.mpr ⟨l, hl, ha⟩

/-- Read and rebuilt: the value of a layout whose lines read back. -/
theorem readMembers_layout (val : α → Yaml) :
    readMembers (3 * ((Block.memberLines 0 ms).map (Line.map val)).length) 0
        ((Block.memberLines 0 ms).map (Line.map val)) =
      if Block.membersDistinct ms then some (Block.memberValues val ms, []) else none := by
  have h := Block.readMembers_memberLines val ms 0
    (3 * ((Block.memberLines 0 ms).map (Line.map val)).length) [] (by simp) (by simp)
  rwa [List.append_nil] at h

/-- A layout with plain keys, none of them twice in one mapping, and scalars that read as `val`
    says reads back as its value. -/
theorem read_render (hne : ms ≠ []) (hkeys : ∀ k ∈ Block.memberLayoutKeys ms, isKey k = true)
    (htop : (ms.map Prod.fst).Nodup) (hdistinct : Block.membersDistinct ms = true)
    (hread : ∀ a ∈ Block.memberScalars ms, readInline (text a) = some (val a)) :
    read (render text ms) = some (.map (Block.memberValues val ms)) := by
  have hlines : ∀ l ∈ Block.memberLines 0 ms, readLine (l.map text).text = some (l.map val) :=
    fun l hl => readLine_map_text (isKey_of_mem_memberLines hkeys hl)
      fun a ha => hread a (mem_memberScalars_of_line hl ha)
  have hbreak : ∀ t ∈ (Block.memberLines 0 ms).map fun l => (l.map text).text, '\n' ∉ t := by
    intro t ht
    obtain ⟨l, hl, rfl⟩ := List.mem_map.mp ht
    refine newline_not_mem_text (newline_not_mem_of_isKey (isKey_of_mem_memberLines hkeys hl)) ?_
    intro u hu
    obtain ⟨a, ha, rfl⟩ := Option.map_eq_some_iff.mp hu
    exact newline_not_mem_of_readInline (hread a (mem_memberScalars_of_line hl ha))
  have hmap : ((Block.memberLines 0 ms).map fun l => (l.map text).text).mapM readLine =
      some ((Block.memberLines 0 ms).map (Line.map val)) := by
    rw [List.mapM_map]
    exact mapM_eq_map hlines
  unfold read render
  rw [split_join (by simpa using memberLines_ne_nil hne) hbreak, hmap]
  simp only [Option.bind_eq_bind, Option.bind_some, readMembers_layout, hdistinct, if_true,
    List.isEmpty_nil, Block.asMap_memberValues, htop, decide_true]

/-- **A rendered layout reads back as its value exactly when** every key is plain, no mapping has
    a key twice and every scalar's text reads as its value. For the direction from left to right,
    every line of the text gives one key of the value, so no text can hold a line break. -/
theorem read_render_iff (hne : ms ≠ []) (hval : ∀ a ∈ Block.memberScalars ms, (val a).keys = []) :
    read (render text ms) = some (.map (Block.memberValues val ms)) ↔
      (∀ k ∈ Block.memberLayoutKeys ms, isKey k = true) ∧ (ms.map Prod.fst).Nodup ∧
        Block.membersDistinct ms = true ∧
        ∀ a ∈ Block.memberScalars ms, readInline (text a) = some (val a) := by
  constructor
  · intro h
    simp only [read, Option.bind_eq_bind, Option.bind_eq_some_iff] at h
    obtain ⟨out, hout, ⟨members, rest⟩, hmembers, h⟩ := h
    simp only [Option.ite_none_right_eq_some, List.isEmpty_iff] at h
    obtain ⟨rfl, h⟩ := h
    obtain ⟨heq, htop⟩ := Block.asMap_some h
    rw [Yaml.map.injEq] at heq
    subst heq
    rw [Block.map_fst_memberValues] at htop
    obtain ⟨hbare, hlength⟩ := bare_of_mapM_readLine hout
    -- One key for each line read, one for each line written.
    have hkeys : out.map Line.key = (Block.memberLines 0 ms).map Line.key := by
      have := ((Block.keys_of_lines _).members hbare hmembers).1
      rw [this, List.map_nil, List.append_nil, Block.memberKeys_memberValues val ms hval,
        Block.map_key_memberLines]
    have hcount : out.length = (Block.memberLines 0 ms).length := by
      simpa using congrArg List.length hkeys
    have hne' : (Block.memberLines 0 ms).map (fun l => (l.map text).text) ≠ [] := by
      simpa using memberLines_ne_nil hne
    rw [render, splitOn_join hne'] at hout hlength
    have hbreak := not_mem_of_length_split (hlength.symm.trans (by rw [hcount, List.length_map]))
    rw [← splitOn_join hne', split_join hne' hbreak] at hout
    obtain ⟨rfl, hall⟩ := lines_of_mapM_readLine hout hkeys
    rw [readMembers_layout, Option.ite_none_right_eq_some, Option.some.injEq, Prod.mk.injEq]
      at hmembers
    obtain ⟨hdistinct, hvalues, _⟩ := hmembers
    have hsame := Block.scalars_of_memberValues_eq ms hvalues
    refine ⟨?_, htop, hdistinct, ?_⟩
    · intro k hk
      rw [← Block.map_key_memberLines 0 ms] at hk
      obtain ⟨l, hl, rfl⟩ := List.mem_map.mp hk
      exact (hall l hl).1
    · intro a ha
      rw [← hsame a ha]
      rw [← Block.filterMap_value_memberLines 0 ms] at ha
      obtain ⟨l, hl, hla⟩ := List.mem_filterMap.mp ha
      exact (hall l hl).2 a hla
  · rintro ⟨hkeys, htop, hdistinct, hread⟩
    exact read_render hne hkeys htop hdistinct hread

end Render

end DeveSub.Yaml
