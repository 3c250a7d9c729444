import ButtonStyle.Json.Draft
import ButtonStyle.Proofs.Json.Spelling

/-!
# Properties of documents

A document has its tokens, which both layouts spell (`spells_compact`, `spells_pretty`), and its
draft, which is what following these tokens gives (`follow_tokens`).  So the text of a document, with
blanks wherever they may stand, is followed to its end and gives the draft of the document
(`ofChars_of_spells_tokens`), and is read as the document (`ofString?_toPretty`).  It ends as lists
and objects are closed (`pretty_list_eq_append`, `pretty_object_eq_append`).
-/

namespace ButtonStyle.Json

open Token (Spells Clear clear_cons clear_nil)

/-! ### Tokens and drafts -/

mutual

/-- The tokens of a document. -/
def tokens : Json → List Token
  | null => [.null]
  | flag b => [.flag b]
  | number l => [.number l]
  | text s => [.text s]
  | list [] => [.openList, .closeList]
  | list (item :: items) => .openList :: tokens item ++ itemTokens items
  | object [] => [.openObject, .closeObject]
  | object ((key, value) :: members) =>
    .openObject :: .text key :: .colon :: tokens value ++ memberTokens members

/-- The tokens of the items after the first, and of the end of the list. -/
def itemTokens : List Json → List Token
  | [] => [.closeList]
  | item :: items => .comma :: tokens item ++ itemTokens items

/-- The tokens of the members after the first, and of the end of the object. -/
def memberTokens : List (String × Json) → List Token
  | [] => [.closeObject]
  | (key, value) :: members =>
    .comma :: .text key :: .colon :: tokens value ++ memberTokens members

end

mutual

/-- The draft of a document: nothing is missing. -/
def draft : Json → Draft
  | null => .null
  | flag b => .flag b
  | number l => .number l
  | text s => .text s
  | list items => .list (itemDrafts items) none
  | object members => .object (memberDrafts members) none

/-- The drafts of the items of a list. -/
def itemDrafts : List Json → List Draft
  | [] => []
  | item :: items => draft item :: itemDrafts items

/-- The drafts of the members of an object. -/
def memberDrafts : List (String × Json) → List (Key × Draft)
  | [] => []
  | (key, value) :: members => (.text key, draft value) :: memberDrafts members

end

theorem itemDrafts_eq_map (items : List Json) : itemDrafts items = items.map draft := by
  induction items with
  | nil => rfl
  | cons item items ih => rw [itemDrafts, ih, List.map_cons]

/-! ### The compact layout -/

/-- A token that is no number ends where it ends. -/
theorem spells_token (t : Token) (ht : t.isSound = true) (hn : ∀ l, t ≠ .number l)
    {cs : List Char} {ts : List Token} (h : Spells cs ts) : Spells (t.chars ++ cs) (t :: ts) :=
  .token ht (fun l hl => absurd hl (hn l)) h

theorem spells_mark {c : Char} {t : Token} (hc : Token.punctuation? c = some t) {cs : List Char}
    {ts : List Token} (h : Spells cs ts) : Spells (c :: cs) (t :: ts) := by
  have htoken := spells_token t
  unfold Token.punctuation? at hc
  split_ifs at hc with h1 h2 h3 h4 h5 h6
  all_goals
    obtain rfl := Option.some.inj hc
    subst c
    exact htoken rfl nofun h

theorem spells_text (s : String) {cs : List Char} {ts : List Token} (h : Spells cs ts) :
    Spells (textChars s ++ cs) (.text s :: ts) := spells_token (.text s) rfl nofun h

theorem spells_flag (b : Bool) {cs : List Char} {ts : List Token} (h : Spells cs ts) :
    Spells (flagChars b ++ cs) (.flag b :: ts) := spells_token (.flag b) rfl nofun h

theorem spells_number (l : Literal) {cs : List Char} {ts : List Token} (hc : Clear cs)
    (h : Spells cs ts) : Spells (l.chars ++ cs) (.number l :: ts) :=
  .token (t := .number l) rfl (fun _ _ => hc) h

theorem clear_compactItems (items : List Json) (cs : List Char) :
    Clear (compactItems items ++ cs) := by
  cases items <;> exact clear_cons.2 rfl

theorem clear_compactMembers (members : List (String × Json)) (cs : List Char) :
    Clear (compactMembers members ++ cs) := by
  cases members <;> exact clear_cons.2 rfl

mutual

theorem spells_compact_append : ∀ (d : Json) {cs : List Char} {ts : List Token}, Clear cs →
    Spells cs ts → Spells (d.compact ++ cs) (d.tokens ++ ts)
  | null, _, _, _, h => spells_token .null rfl nofun h
  | flag b, _, _, _, h => spells_flag b h
  | number l, _, _, hc, h => spells_number l hc h
  | text s, _, _, _, h => spells_text s h
  | list [], _, _, _, h => spells_mark rfl (spells_mark rfl h)
  | list (item :: items), cs, ts, _, h => by
    simp only [compact, tokens, List.cons_append, List.append_assoc]
    refine spells_mark rfl ?_
    exact spells_compact_append item (clear_compactItems items cs) (spells_compactItems items h)
  | object [], _, _, _, h => spells_mark rfl (spells_mark rfl h)
  | object ((key, value) :: members), cs, ts, _, h => by
    simp only [compact, tokens, List.cons_append, List.append_assoc]
    refine spells_mark rfl (spells_text key (spells_mark rfl ?_))
    exact spells_compact_append value (clear_compactMembers members cs)
      (spells_compactMembers members h)

theorem spells_compactItems : ∀ (items : List Json) {cs : List Char} {ts : List Token},
    Spells cs ts → Spells (compactItems items ++ cs) (itemTokens items ++ ts)
  | [], _, _, h => spells_mark rfl h
  | item :: items, cs, ts, h => by
    simp only [compactItems, itemTokens, List.cons_append, List.append_assoc]
    refine spells_mark rfl ?_
    exact spells_compact_append item (clear_compactItems items cs) (spells_compactItems items h)

theorem spells_compactMembers : ∀ (members : List (String × Json)) {cs : List Char}
    {ts : List Token}, Spells cs ts →
    Spells (compactMembers members ++ cs) (memberTokens members ++ ts)
  | [], _, _, h => spells_mark rfl h
  | (key, value) :: members, cs, ts, h => by
    simp only [compactMembers, memberTokens, List.cons_append, List.append_assoc]
    refine spells_mark rfl (spells_text key (spells_mark rfl ?_))
    exact spells_compact_append value (clear_compactMembers members cs)
      (spells_compactMembers members h)

end

theorem spells_compact (d : Json) : Spells d.compact d.tokens := by
  simpa using spells_compact_append d clear_nil .nil

/-! ### The indented layout -/

theorem spells_newline (depth : ℕ) {cs : List Char} {ts : List Token} (h : Spells cs ts) :
    Spells (newline depth ++ cs) ts := by
  refine .space rfl ?_
  induction 2 * depth with
  | zero => exact h
  | succ n ih => exact .space rfl ih

theorem clear_prettyItems (depth : ℕ) (items : List Json) (cs : List Char) :
    Clear (prettyItems depth items ++ cs) := by
  cases items <;> exact clear_cons.2 rfl

theorem clear_prettyMembers (depth : ℕ) (members : List (String × Json)) (cs : List Char) :
    Clear (prettyMembers depth members ++ cs) := by
  cases members <;> exact clear_cons.2 rfl

mutual

theorem spells_pretty_append : ∀ (depth : ℕ) (d : Json) {cs : List Char} {ts : List Token},
    Clear cs → Spells cs ts → Spells (d.pretty depth ++ cs) (d.tokens ++ ts)
  | _, null, _, _, _, h => spells_token .null rfl nofun h
  | _, flag b, _, _, _, h => spells_flag b h
  | _, number l, _, _, hc, h => spells_number l hc h
  | _, text s, _, _, _, h => spells_text s h
  | _, list [], _, _, _, h => spells_mark rfl (spells_mark rfl h)
  | depth, list (item :: items), cs, ts, _, h => by
    simp only [pretty, tokens, List.cons_append, List.append_assoc]
    refine spells_mark rfl (spells_newline _ ?_)
    exact spells_pretty_append _ item (clear_prettyItems depth items cs)
      (spells_prettyItems depth items h)
  | _, object [], _, _, _, h => spells_mark rfl (spells_mark rfl h)
  | depth, object ((key, value) :: members), cs, ts, _, h => by
    simp only [pretty, tokens, List.cons_append, List.append_assoc]
    refine spells_mark rfl (spells_newline _ (spells_text key (spells_mark rfl (.space rfl ?_))))
    exact spells_pretty_append _ value (clear_prettyMembers depth members cs)
      (spells_prettyMembers depth members h)

theorem spells_prettyItems : ∀ (depth : ℕ) (items : List Json) {cs : List Char}
    {ts : List Token}, Spells cs ts →
    Spells (prettyItems depth items ++ cs) (itemTokens items ++ ts)
  | _, [], _, _, h => by
    simp only [prettyItems, itemTokens, List.append_assoc]
    exact spells_newline _ (spells_mark rfl h)
  | depth, item :: items, cs, ts, h => by
    simp only [prettyItems, itemTokens, List.cons_append, List.append_assoc]
    refine spells_mark rfl (spells_newline _ ?_)
    exact spells_pretty_append _ item (clear_prettyItems depth items cs)
      (spells_prettyItems depth items h)

theorem spells_prettyMembers : ∀ (depth : ℕ) (members : List (String × Json)) {cs : List Char}
    {ts : List Token}, Spells cs ts →
    Spells (prettyMembers depth members ++ cs) (memberTokens members ++ ts)
  | _, [], _, _, h => by
    simp only [prettyMembers, memberTokens, List.append_assoc]
    exact spells_newline _ (spells_mark rfl h)
  | depth, (key, value) :: members, cs, ts, h => by
    simp only [prettyMembers, memberTokens, List.cons_append, List.append_assoc]
    refine spells_mark rfl (spells_newline _ (spells_text key (spells_mark rfl (.space rfl ?_))))
    exact spells_pretty_append _ value (clear_prettyMembers depth members cs)
      (spells_prettyMembers depth members h)

end

theorem spells_pretty (depth : ℕ) (d : Json) : Spells (d.pretty depth) d.tokens := by
  simpa using spells_pretty_append depth d clear_nil .nil

/-! ### Following the tokens of a document -/

namespace Draft

/-- What there is after a whole value, and what is then followed. -/
def resume (d : Draft) : List Frame → List Token → Draft × List Token
  | [], ts => (d, ts)
  | frame :: frames, ts => follow .more (frame.put d :: frames) ts

theorem follow_of_on {w v : Wanted} {frames frames' : List Frame} {t : Token}
    (h : step w frames t = .on v frames') (ts : List Token) :
    follow w frames (t :: ts) = follow v frames' ts := by
  rw [follow, h]

theorem follow_of_complete {w : Wanted} {frames : List Frame} {t : Token} {d : Draft}
    (frames' : List Frame) (h : step w frames t = complete d frames') (ts : List Token) :
    follow w frames (t :: ts) = resume d frames' ts := by
  rw [follow, h]
  cases frames' <;> rfl

/-- Where a list may begin or end, a document begins it. -/
theorem follow_item_tokens (d : Json) (frame : Frame) (frames : List Frame) (ts : List Token) :
    follow .item (frame :: frames) (d.tokens ++ ts) =
      follow .value (frame :: frames) (d.tokens ++ ts) := by
  match d with
  | .null | .flag _ | .number _ | .text _ | .list [] | .list (_ :: _) | .object []
  | .object ((_, _) :: _) => rfl

mutual

theorem follow_tokens_append : ∀ (d : Json) (frames : List Frame) (ts : List Token),
    follow .value frames (d.tokens ++ ts) = resume d.draft frames ts
  | .null, _, ts => follow_of_complete _ rfl ts
  | .flag _, _, ts => follow_of_complete _ rfl ts
  | .number _, _, ts => follow_of_complete _ rfl ts
  | .text _, _, ts => follow_of_complete _ rfl ts
  | .list [], frames, ts => follow_of_complete frames rfl ts
  | .list (item :: items), frames, ts => by
    simp only [tokens, List.cons_append, List.append_assoc]
    rw [follow_of_on rfl, follow_item_tokens, follow_tokens_append item]
    exact follow_itemTokens items [item.draft] frames ts
  | .object [], frames, ts => follow_of_complete frames rfl ts
  | .object ((key, value) :: members), frames, ts => by
    simp only [tokens, List.cons_append, List.append_assoc]
    rw [follow_of_on rfl, follow_of_on rfl, follow_of_on rfl, follow_tokens_append value]
    exact follow_memberTokens members [(.text key, value.draft)] frames ts

theorem follow_itemTokens : ∀ (items : List Json) (done : List Draft) (frames : List Frame)
    (ts : List Token), follow .more (.list done :: frames) (itemTokens items ++ ts) =
      resume (.list (done.reverse ++ itemDrafts items) none) frames ts
  | [], done, frames, ts => by
    rw [itemDrafts, List.append_nil]
    exact follow_of_complete _ rfl ts
  | item :: items, done, frames, ts => by
    simp only [itemTokens, List.cons_append, List.append_assoc]
    rw [follow_of_on rfl, follow_tokens_append item]
    refine (follow_itemTokens items (item.draft :: done) frames ts).trans ?_
    simp [itemDrafts]

theorem follow_memberTokens : ∀ (members : List (String × Json)) (done : List (Key × Draft))
    (frames : List Frame) (ts : List Token),
    follow .more (.object done :: frames) (memberTokens members ++ ts) =
      resume (.object (done.reverse ++ memberDrafts members) none) frames ts
  | [], done, frames, ts => by
    rw [memberDrafts, List.append_nil]
    exact follow_of_complete _ rfl ts
  | (key, value) :: members, done, frames, ts => by
    simp only [memberTokens, List.cons_append, List.append_assoc]
    rw [follow_of_on rfl, follow_of_on rfl, follow_of_on rfl, follow_tokens_append value]
    refine (follow_memberTokens members ((.text key, value.draft) :: done) frames ts).trans ?_
    simp [memberDrafts]

end

/-- **Following the tokens of a document gives its draft.** -/
theorem follow_tokens (d : Json) : follow .value [] d.tokens = (d.draft, []) := by
  have h := follow_tokens_append d [] []
  rwa [List.append_nil] at h

/-- **A text that spells the tokens of a document is followed to its end, wherever blanks stand.** -/
theorem ofChars_of_spells_tokens {cs : List Char} {d : Json} (h : Spells cs d.tokens) :
    ofChars cs = (d.draft, []) := by
  rw [ofChars, Token.ofChars_of_spells h, follow_tokens]

/-! ### Reading documents -/

mutual

theorem document?_draft : ∀ d : Json, d.draft.document? = some d
  | .null | .flag _ | .number _ | .text _ => rfl
  | .list items => by rw [draft, document?, documents?_itemDrafts items]; rfl
  | .object members => by rw [draft, document?, documentMembers?_memberDrafts members]; rfl

theorem documents?_itemDrafts : ∀ items : List Json, documents? (itemDrafts items) = some items
  | [] => rfl
  | item :: items => by
    rw [itemDrafts, documents?, document?_draft item, documents?_itemDrafts items]
    rfl

theorem documentMembers?_memberDrafts : ∀ members : List (String × Json),
    documentMembers? (memberDrafts members) = some members
  | [] => rfl
  | (key, value) :: members => by
    simp only [memberDrafts, documentMembers?, document?_draft value,
      documentMembers?_memberDrafts members]
    rfl

end

end Draft

/-- **A document is read from its text over several lines.** -/
theorem ofString?_toPretty (d : Json) : ofString? d.toPretty = some d := by
  rw [ofString?, toPretty, String.toList_ofList,
    Draft.ofChars_of_spells_tokens (spells_pretty 0 d)]
  exact Draft.document?_draft d

/-- Different documents have different texts. -/
theorem toPretty_injective : Function.Injective toPretty := by
  intro d e h
  have hd := ofString?_toPretty d
  rw [h, ofString?_toPretty e] at hd
  exact (Option.some.inj hd).symm

/-! ### How texts end -/

theorem prettyItems_eq_append (depth : ℕ) (items : List Json) :
    ∃ cs, prettyItems depth items = cs ++ [']'] := by
  induction items with
  | nil => exact ⟨newline depth, by rw [prettyItems]⟩
  | cons item items ih =>
    obtain ⟨cs, hcs⟩ := ih
    rw [prettyItems, hcs, ← List.append_assoc]
    exact ⟨_, rfl⟩

/-- The text of a list ends with a bracket. -/
theorem pretty_list_eq_append (depth : ℕ) (items : List Json) :
    ∃ cs, (list items).pretty depth = cs ++ [']'] := by
  cases items with
  | nil => exact ⟨['['], by rw [pretty]; rfl⟩
  | cons item items =>
    obtain ⟨cs, hcs⟩ := prettyItems_eq_append depth items
    rw [pretty, hcs, ← List.append_assoc]
    exact ⟨_, rfl⟩

theorem prettyMembers_eq_append (depth : ℕ) (members : List (String × Json)) :
    ∃ cs, prettyMembers depth members = cs ++ ['\x7d'] := by
  induction members with
  | nil => exact ⟨newline depth, by rw [prettyMembers]⟩
  | cons member members ih =>
    obtain ⟨key, value⟩ := member
    obtain ⟨cs, hcs⟩ := ih
    rw [prettyMembers, hcs, ← List.append_assoc]
    exact ⟨_, rfl⟩

/-- The text of an object ends with a brace. -/
theorem pretty_object_eq_append (depth : ℕ) (members : List (String × Json)) :
    ∃ cs, (object members).pretty depth = cs ++ ['\x7d'] := by
  cases members with
  | nil => exact ⟨['\x7b'], by rw [pretty]; rfl⟩
  | cons member members =>
    obtain ⟨key, value⟩ := member
    obtain ⟨cs, hcs⟩ := prettyMembers_eq_append depth members
    rw [pretty, hcs, ← List.append_assoc]
    exact ⟨_, rfl⟩

end ButtonStyle.Json
