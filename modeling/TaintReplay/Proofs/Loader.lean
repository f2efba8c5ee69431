import TaintReplay.Proofs.Reading
import TaintReplay.Proofs.Scanner
/-!
# Loading — the tokens of an outline give its node

The loader keeps what is open on a stack of frames. Where the value of a key is awaited,
the tokens of an outline complete it (`foldlM_tokens`); a list at the indentation of its
map is complete only with the token behind it, so what follows must be a key or the end of
the map (`EndsValue`). The node has no anchors and no aliases, so that following aliases
leaves it as it is (`resolve_node`).
-/

namespace TaintReplay.Yaml

/-! ## Characters -/

theorem isAllowed_of_isWordChar {c : Char} (h : isWordChar c = true) : isAllowed c = true := by
  have hrange : 0x20 ≤ c.toNat ∧ c.toNat ≤ 0x7E := by
    change ((((decide (c.val ≥ 'A'.val ∧ c.val ≤ 'Z'.val) ||
      (decide (c.val ≥ 'a'.val) && decide (c.val ≤ 'z'.val))) ||
      (decide (c.val ≥ '0'.val) && decide (c.val ≤ '9'.val))) || c == '_') || c == '.') = true at h
    simp only [Bool.or_eq_true, Bool.and_eq_true, decide_eq_true_eq, beq_iff_eq, ge_iff_le,
      UInt32.le_iff_toNat_le] at h
    rcases h with (h | rfl) | rfl
    · have hcode : c.toNat = c.val.toNat := rfl
      have hupper : 'A'.val.toNat = 65 ∧ 'Z'.val.toNat = 90 := ⟨rfl, rfl⟩
      have hlower : 'a'.val.toNat = 97 ∧ 'z'.val.toNat = 122 := ⟨rfl, rfl⟩
      have hdigit : '0'.val.toNat = 48 ∧ '9'.val.toNat = 57 := ⟨rfl, rfl⟩
      omega
    · decide
    · decide
  simp [isAllowed, hrange]

/-- The characters that an outline is written with. -/
def isInk (c : Char) : Bool := isWordChar c || " \n:-'[]".toList.contains c

theorem isAllowed_of_isInk {c : Char} (h : isInk c = true) :
    isAllowed c = true ∧ c ≠ '\r' ∧ c ≠ '\x85' := by
  refine ⟨?_, ?_, ?_⟩
  · rw [isInk, Bool.or_eq_true, List.contains_iff_mem] at h
    rcases h with hword | hsign
    · exact isAllowed_of_isWordChar hword
    · exact List.all_eq_true.1 (by decide : " \n:-'[]".toList.all isAllowed = true) c hsign
  · rintro rfl
    revert h
    decide
  · rintro rfl
    revert h
    decide

theorem unifyLines_eq_self {cs : List Char} (h : ∀ c ∈ cs, isInk c = true) :
    unifyLines cs = cs := by
  induction cs with
  | nil => rfl
  | cons c cs ih =>
    obtain ⟨hc, hcs⟩ := List.forall_mem_cons.1 h
    obtain ⟨-, hreturn, hnext⟩ := isAllowed_of_isInk hc
    rw [unifyLines, ih hcs]
    · exact fun _ heq _ => hreturn heq
    · exact hreturn
    · exact hnext

theorem isInk_of_isWord {word : List Char} (h : IsWord word) : ∀ c ∈ word, isInk c = true :=
  fun c hc => by rw [isInk, h.chars c hc, Bool.true_or]

theorem isInk_itemText {s : String} (hs : IsWord s.toList) (n : Nat) :
    ∀ c ∈ itemText n s, isInk c = true := by
  have hword := isInk_of_isWord hs
  intro c hc
  have hcases : c ∈ s.toList ∨ c ∈ [' ', '-', '\'', '\n'] := by
    simp only [itemText, toList_quoteName] at hc
    split at hc <;> simp at hc ⊢ <;> grind
  rcases hcases with hmem | hmem
  · exact hword c hmem
  · exact List.all_eq_true.1 (by decide : [' ', '-', '\'', '\n'].all isInk = true) c hmem

mutual

/-- A legible outline is written with the characters for it. -/
theorem isInk_text : (b : Outline) → b.Legible → (n : Nat) → ∀ c ∈ b.text n, isInk c = true
  | .scalar s, hb, n => by
    have hs : IsWord s.toList := by simpa only [Outline.Legible] using hb
    have hword := isInk_of_isWord hs
    simp only [Outline.text, List.forall_mem_cons, List.forall_mem_append]
    exact ⟨rfl, hword, rfl, nofun⟩
  | .names [], _, _ => by
    rw [Outline.text]
    exact List.all_eq_true.1 (by decide)
  | .names (s :: ss), hb, n => by
    have hss : ∀ x ∈ s :: ss, IsWord x.toList := by simpa only [Outline.Legible] using hb
    rw [Outline.text, List.forall_mem_cons]
    refine ⟨rfl, fun c hc => ?_⟩
    obtain ⟨x, hx, hc⟩ := List.mem_flatMap.1 hc
    exact isInk_itemText (hss x hx) n c hc
  | .fields es, hb, n => by
    obtain ⟨-, hes⟩ : es ≠ [] ∧ Outline.LegibleAll es := by
      simpa only [Outline.Legible] using hb
    rw [Outline.text, List.forall_mem_cons]
    exact ⟨rfl, isInk_textOf es hes (n + 2)⟩

theorem isInk_textOf : (es : List (String × Outline)) → Outline.LegibleAll es → (n : Nat) →
    ∀ c ∈ Outline.textOf n es, isInk c = true
  | [], _, _ => nofun
  | (name, b) :: es, hes, n => by
    obtain ⟨⟨hname, -⟩, hb, hrest⟩ := hes
    simp only [Outline.textOf, List.forall_mem_cons, List.forall_mem_append]
    refine ⟨⟨fun c hc => ?_, isInk_of_isWord hname, rfl, isInk_text b hb n⟩,
      isInk_textOf es hrest n⟩
    rw [(List.mem_replicate.1 hc).2]
    rfl

end

theorem characters?_eq_some {cs : List Char} (h : ∀ c ∈ cs, isInk c = true) :
    characters? (String.ofList cs) = some cs := by
  have hall : cs.all isAllowed = true :=
    List.all_eq_true.2 fun c hc => (isAllowed_of_isInk (h c hc)).1
  rw [characters?, String.toList_ofList, if_pos hall, unifyLines_eq_self h]

/-! ## Frames -/

variable {a a' : Option Nat} {read : List (Node × Node)} {items : List Node} {k : Node}
variable {fs : List Frame} {s : String} {isPlain : Bool} {names : List (String × Nat)}
variable {t : Token} {rest : List Token}

/-- A key with its signs, where one may stand. -/
theorem foldlM_key (ts : List Token) :
    (.key :: .scalar s isPlain :: .value :: ts).foldlM Loader.feed ⟨.keys a read :: fs, names⟩ =
      ts.foldlM Loader.feed ⟨.value a read (.scalar none s isPlain) :: fs, names⟩ := by
  have hkey : Loader.feed ⟨.keys a read :: fs, names⟩ .key =
      some ⟨.key a read :: fs, names⟩ := by
    simp [Loader.feed, settle]
  have hscalar : Loader.feed ⟨.key a read :: fs, names⟩ (.scalar s isPlain) =
      some ⟨.colon a read (.scalar none s isPlain) :: fs, names⟩ := by
    simp [Loader.feed, settle, Frame.awaitsNode, Loader.node, startsNode, Loader.startNode,
      deliver, Frame.receive]
  have hvalue : Loader.feed ⟨.colon a read (.scalar none s isPlain) :: fs, names⟩ .value =
      some ⟨.value a read (.scalar none s isPlain) :: fs, names⟩ := by
    simp [Loader.feed, settle]
  simp [List.foldlM_cons, hkey, hscalar, hvalue]

/-- What ends the value of a key: the next key, or the end of the map. -/
def EndsValue (ts : List Token) : Prop := ∃ t ts', ts = t :: ts' ∧ (t = .key ∨ t = .blockEnd)

/-- A list at the indentation of its map is complete with the token behind it. -/
theorem foldlM_flushItems (h : EndsValue rest) :
    rest.foldlM Loader.feed ⟨.flushItems none items :: .value a read k :: fs, names⟩ =
      rest.foldlM Loader.feed ⟨.keys a ((k, .list none items.reverse) :: read) :: fs, names⟩ := by
  obtain ⟨t, ts, rfl, ht⟩ := h
  have hfeed : Loader.feed ⟨.flushItems none items :: .value a read k :: fs, names⟩ t =
      Loader.feed ⟨.keys a ((k, .list none items.reverse) :: read) :: fs, names⟩ t := by
    rcases ht with rfl | rfl
    · simp [Loader.feed, settle, deliver, Frame.receive]
    · simp [Loader.feed, settle, deliver, Frame.receive]
  rw [List.foldlM_cons, List.foldlM_cons, hfeed]

/-- The items of such a list. -/
theorem foldlM_items (names : List (String × Nat)) (ss : List String) (items : List Node)
    (fs : List Frame) (rest : List Token) :
    (ss.flatMap itemTokens ++ rest).foldlM Loader.feed ⟨.flushItems none items :: fs, names⟩ =
      rest.foldlM Loader.feed
        ⟨.flushItems none ((ss.map itemNode).reverse ++ items) :: fs, names⟩ := by
  induction ss generalizing items with
  | nil => rfl
  | cons s ss ih =>
    have hdash : Loader.feed ⟨.flushItems none items :: fs, names⟩ .dash =
        some ⟨.flushItem none items :: fs, names⟩ := by
      simp [Loader.feed, settle]
    have hscalar : Loader.feed ⟨.flushItem none items :: fs, names⟩ (.scalar s (!isQuoted s)) =
        some ⟨.flushItems none (itemNode s :: items) :: fs, names⟩ := by
      simp [Loader.feed, settle, Frame.awaitsNode, Loader.node, startsNode, Loader.startNode,
        deliver, Frame.receive, itemNode]
    have hrest := ih (itemNode s :: items)
    simpa [itemTokens, List.foldlM_cons, hdash, hscalar] using hrest

theorem endsValue_tokensOf (es : List (String × Outline)) (rest : List Token) :
    EndsValue (Outline.tokensOf es ++ .blockEnd :: rest) := by
  cases es with
  | nil => exact ⟨_, _, rfl, .inr rfl⟩
  | cons e es => exact ⟨_, _, rfl, .inl rfl⟩

mutual

/-- **The tokens of an outline complete the value that is awaited.** -/
theorem foldlM_tokens (names : List (String × Nat)) : (b : Outline) → (a : Option Nat) →
    (read : List (Node × Node)) → (k : Node) → (fs : List Frame) → {rest : List Token} →
      EndsValue rest →
      (b.tokens ++ rest).foldlM Loader.feed ⟨.value a read k :: fs, names⟩ =
        rest.foldlM Loader.feed ⟨.keys a ((k, b.node) :: read) :: fs, names⟩
  | .scalar s, a, read, k, fs, rest, _ => by
    have hscalar : Loader.feed ⟨.value a read k :: fs, names⟩ (.scalar s true) =
        some ⟨.keys a ((k, .scalar none s true) :: read) :: fs, names⟩ := by
      simp [Loader.feed, settle, Frame.awaitsNode, Loader.node, startsNode, Loader.startNode,
        deliver, Frame.receive]
    simp [Outline.tokens, Outline.node, List.foldlM_cons, hscalar]
  | .names [], a, read, k, fs, rest, _ => by
    have hopen : Loader.feed ⟨.value a read k :: fs, names⟩ .flowListStart =
        some ⟨.flowItems none [] :: .value a read k :: fs, names⟩ := by
      simp [Loader.feed, settle, Frame.awaitsNode, Loader.node, startsNode, Loader.startNode]
    have hclose : Loader.feed ⟨.flowItems none [] :: .value a read k :: fs, names⟩ .flowListEnd =
        some ⟨.keys a ((k, .list none []) :: read) :: fs, names⟩ := by
      simp [Loader.feed, settle, deliver, Frame.receive]
    simp [Outline.tokens, Outline.node, List.foldlM_cons, hopen, hclose]
  | .names (s :: ss), a, read, k, fs, rest, h => by
    have hdash : Loader.feed ⟨.value a read k :: fs, names⟩ .dash =
        some ⟨.flushItem none [] :: .value a read k :: fs, names⟩ := by
      simp [Loader.feed, settle, Frame.awaitsNode, Loader.node, startsNode, Loader.startNode,
        Frame.allowsFlush]
    have hscalar : Loader.feed ⟨.flushItem none [] :: .value a read k :: fs, names⟩
        (.scalar s (!isQuoted s)) =
          some ⟨.flushItems none [itemNode s] :: .value a read k :: fs, names⟩ := by
      simp [Loader.feed, settle, Frame.awaitsNode, Loader.node, startsNode, Loader.startNode,
        deliver, Frame.receive, itemNode]
    have hitems := foldlM_items names ss [itemNode s] (.value a read k :: fs) rest
    rw [foldlM_flushItems h] at hitems
    simpa [Outline.tokens, Outline.node, itemTokens, List.foldlM_cons, hdash, hscalar] using hitems
  | .fields es, a, read, k, fs, rest, h => by
    have hopen : Loader.feed ⟨.value a read k :: fs, names⟩ .blockMapStart =
        some ⟨.keys none [] :: .value a read k :: fs, names⟩ := by
      simp [Loader.feed, settle, Frame.awaitsNode, Loader.node, startsNode, Loader.startNode,
        Frame.allowsBlock]
    have hclose : Loader.feed ⟨.keys none (Outline.nodesOf es).reverse :: .value a read k :: fs,
        names⟩ .blockEnd =
          some ⟨.keys a ((k, .map none (Outline.nodesOf es)) :: read) :: fs, names⟩ := by
      simp [Loader.feed, settle, deliver, Frame.receive]
    have hfields := foldlM_tokensOf names es none [] (.value a read k :: fs) rest
    rw [List.append_nil, List.foldlM_cons, hclose] at hfields
    simpa [Outline.tokens, Outline.node, List.foldlM_cons, hopen] using hfields

/-- The tokens of the fields are taken into the map that is open. -/
theorem foldlM_tokensOf (names : List (String × Nat)) : (es : List (String × Outline)) →
    (a : Option Nat) → (read : List (Node × Node)) → (fs : List Frame) → (rest : List Token) →
      (Outline.tokensOf es ++ .blockEnd :: rest).foldlM Loader.feed ⟨.keys a read :: fs, names⟩ =
        (.blockEnd :: rest).foldlM Loader.feed
          ⟨.keys a ((Outline.nodesOf es).reverse ++ read) :: fs, names⟩
  | [], _, _, _, _ => rfl
  | (name, b) :: es, a, read, fs, rest => by
    have hvalue := foldlM_tokens names b a read (.scalar none name true) fs
      (endsValue_tokensOf es rest)
    rw [foldlM_tokensOf names es] at hvalue
    have hsplit : Outline.tokensOf ((name, b) :: es) ++ .blockEnd :: rest =
        .key :: .scalar name true :: .value ::
          (b.tokens ++ (Outline.tokensOf es ++ .blockEnd :: rest)) := by
      simp [Outline.tokensOf]
    rw [hsplit, foldlM_key, hvalue]
    simp [Outline.nodesOf]

end

/-! ## Documents -/

/-- **The text of an outline is the document it says.** -/
theorem document?_textOf {es : List (String × Outline)} (hne : es ≠ [])
    (h : Outline.LegibleAll es) :
    document? (String.ofList (Outline.textOf 0 es)) = some (.map none (Outline.nodesOf es)) := by
  have hopen : Loader.feed {} .blockMapStart = some ⟨[.keys none [], .stream], []⟩ := by
    simp [Loader.feed, settle, Frame.awaitsNode, Loader.node, startsNode, Loader.startNode,
      Frame.allowsBlock]
  have hclose : Loader.feed ⟨[.keys none (Outline.nodesOf es).reverse, .stream], []⟩ .blockEnd =
      some ⟨[.complete (.map none (Outline.nodesOf es)) false], []⟩ := by
    simp [Loader.feed, settle, deliver, Frame.receive]
  have hend : Loader.feed ⟨[.complete (.map none (Outline.nodesOf es)) false], []⟩ .streamEnd =
      some ⟨[.complete (.map none (Outline.nodesOf es)) false], []⟩ := by
    simp [Loader.feed, settle]
  have hfields := foldlM_tokensOf [] es none [] [.stream] [.streamEnd]
  have hload : List.foldlM Loader.feed {} (.blockMapStart :: Outline.tokensOf es ++
      [.blockEnd, .streamEnd]) =
        some ⟨[.complete (.map none (Outline.nodesOf es)) false], []⟩ := by
    rw [List.append_nil] at hfields
    rw [List.cons_append, List.foldlM_cons, hopen]
    refine hfields.trans ?_
    simp [List.foldlM_cons, hclose, hend]
  rw [document?, characters?_eq_some (isInk_textOf es h 0), Option.bind_eq_bind, Option.bind_some,
    tokens?_textOf hne h, Option.bind_eq_bind, Option.bind_some, hload]
  rfl

/-! ## Aliases -/

namespace Node

variable {table : List (Nat × Node)} {limit : Nat}

theorem resolve_scalar (anchor : Option Nat) (s : String) (isPlain : Bool) :
    resolve table limit .whole (.scalar anchor s isPlain) = pure (.scalar none s isPlain) := by
  cases limit
  all_goals
    delta resolve
    rfl

theorem resolve_list (anchor : Option Nat) (items : List Node) :
    resolve table (limit + 1) .whole (.list anchor items) = do
      return .list none (← items.mapM (resolve table limit .whole)) := by
  delta resolve
  rfl

theorem resolve_map (anchor : Option Nat) (entries : List (Node × Node)) :
    resolve table (limit + 1) .whole (.map anchor entries) = do
      return .map none (← entries.mapM fun (k, v) => do
        let k ← resolve table limit .whole k
        return (k, ← resolve table limit .whole v)) := by
  delta resolve
  rfl

end Node

mutual

/-- **Following aliases leaves the node of an outline as it is**, if there are levels
enough. -/
theorem resolve_node (table : List (Nat × Node)) : (b : Outline) → {limit : Nat} →
    b.height ≤ limit → b.node.resolve table limit .whole = pure b.node
  | .scalar s, limit, _ => Node.resolve_scalar none s true
  | .names ss, limit, h => by
    rw [Outline.height] at h
    obtain ⟨limit, rfl⟩ : ∃ m, limit = m + 1 := ⟨limit - 1, by omega⟩
    have hitems : (ss.map itemNode).mapM (Node.resolve table limit .whole) =
        pure (ss.map itemNode) := by
      refine mapM_eq_pure_self fun n hn => ?_
      obtain ⟨s, -, rfl⟩ := List.mem_map.1 hn
      exact Node.resolve_scalar none s _
    rw [Outline.node, Node.resolve_list, hitems, pure_bind]
  | .fields es, limit, h => by
    rw [Outline.height] at h
    obtain ⟨limit, rfl⟩ : ∃ m, limit = m + 1 := ⟨limit - 1, by omega⟩
    rw [Outline.node, Node.resolve_map]
    rw [resolve_nodesOf table es (Nat.le_of_succ_le_succ h), pure_bind]

theorem resolve_nodesOf (table : List (Nat × Node)) : (es : List (String × Outline)) →
    {limit : Nat} → Outline.heightOf es ≤ limit →
      ((Outline.nodesOf es).mapM fun (k, v) => do
        let k ← Node.resolve table limit .whole k
        return (k, ← Node.resolve table limit .whole v)) = pure (Outline.nodesOf es)
  | [], _, _ => rfl
  | (name, b) :: es, limit, h => by
    rw [Outline.heightOf] at h
    have hvalue : b.node.resolve table limit .whole = pure b.node := resolve_node table b (by omega)
    rw [Outline.nodesOf, List.mapM_cons, resolve_nodesOf table es (by omega)]
    simp only [Node.resolve_scalar, hvalue, pure_bind]

end

/-- **What is written as an outline is read back**, all of it. -/
theorem read?_textOf {es : List (String × Outline)} (hne : es ≠ []) (h : Outline.LegibleAll es)
    (hheight : Outline.heightOf es < nestingLimit) :
    read? .whole (String.ofList (Outline.textOf 0 es)) = some (.map none (Outline.nodesOf es)) := by
  have hresolve : ∀ table, (Node.map none (Outline.nodesOf es)).resolve table nestingLimit .whole =
      pure (.map none (Outline.nodesOf es)) := by
    intro table
    exact resolve_node table (.fields es) (by rw [Outline.height]; omega)
  rw [read?, document?_textOf hne h, Option.bind_eq_bind, Option.bind_some, hresolve]
  rfl

end TaintReplay.Yaml
