import ButtonStyle.Proofs.Json.Document

/-!
# Torn texts

A text that ends too early is cut into the tokens before its end, after which there may be what is
left of one more: a number can be shorter, and anything else is a gap (`ofChars_take_of_spells`).
So what is followed of a torn document is left open (`isTorn_ofChars_take`): wherever a document is
torn, the draft of the rest is either broken or a lone number.
-/

namespace ButtonStyle.Json

namespace Token

/-! ### What is left of a token -/

/-- Whether a token can be what is left of another one. -/
def isRemnant : Token → Bool
  | number _ | gap _ => true
  | _ => false

/-- What is read of a token goes to the end of the text, and is what is left of it. -/
def Torn (r : Token × List Char) : Prop := r.1.isRemnant = true ∧ r.2 = []

theorem torn_brokenNumber (cs : List Char) : Torn (brokenNumber cs) := ⟨rfl, rfl⟩

theorem torn_number (l : Literal) : Torn (number l, []) := ⟨rfl, rfl⟩

theorem torn_gap (g : Gap) : Torn (gap g, []) := ⟨rfl, rfl⟩

theorem mem_head?_of_take {α : Type} {as : List α} {n : ℕ} {a : α} (h : a ∈ (as.take n).head?) :
    a ∈ as.head? := by
  rw [List.head?_take] at h
  split_ifs at h
  · cases h
  · exact h

theorem leadingDigits_take (ds : List Digit) {cs : List Char}
    (h : ∀ c ∈ cs.head?, Digit.ofChar? c = none) (n : ℕ) :
    leadingDigits ((Digits.chars ds ++ cs).take n) = (ds.take n, cs.take (n - ds.length)) := by
  have htake : (Digits.chars ds ++ cs).take n =
      Digits.chars (ds.take n) ++ cs.take (n - ds.length) := by
    rw [List.take_append, Digits.chars, Digits.chars, List.map_take, List.length_map]
  rw [htake]
  exact leadingDigits_chars _ fun c hc => h c (mem_head?_of_take hc)

/-- An exponent has a sign before its digits. -/
theorem exists_exponentChars (e : ℤ) : ∃ c k, (c = '+' ∨ c = '-') ∧
    Literal.exponentChars (some e) = 'e' :: c :: Digits.chars (Digits.ofNat k) := by
  rcases e with k | k
  · exact ⟨'+', k, .inl rfl, rfl⟩
  · exact ⟨'-', k + 1, .inr rfl, rfl⟩

theorem torn_exponent (negative : Bool) (whole : ℕ) (fraction : List Digit) (e : Option ℤ)
    (n : ℕ) : Torn (exponent negative whole fraction ((Literal.exponentChars e).take n)) := by
  cases e with
  | none =>
    rw [Literal.exponentChars, List.take_nil]
    exact torn_number _
  | some e =>
    obtain ⟨c, k, hc, he⟩ := exists_exponentChars e
    rw [he]
    rcases n with _ | _ | n
    · exact torn_number _
    · exact torn_brokenNumber _
    · have hsign : (exponentSign (c :: (Digits.chars (Digits.ofNat k)).take n)).2 =
          (Digits.chars (Digits.ofNat k)).take n := by
        rcases hc with rfl | rfl <;> rfl
      have hnil : ∀ c ∈ ([] : List Char).head?, Digit.ofChar? c = none := by simp
      have hdigits := leadingDigits_take (Digits.ofNat k) hnil n
      rw [List.append_nil, List.take_nil] at hdigits
      simp only [List.take_succ_cons, exponent, true_or, if_true, hsign, hdigits]
      cases (Digits.ofNat k).take n with
      | nil => exact torn_brokenNumber _
      | cons d ds => exact torn_number _

theorem torn_fraction (negative : Bool) (whole : ℕ) (ds : List Digit) (e : Option ℤ) (n : ℕ) :
    Torn (fraction negative whole ((fractionChars ds ++ Literal.exponentChars e).take n)) := by
  have hhead := clear_exponentChars_or e clear_nil
  rw [List.append_nil] at hhead
  cases ds with
  | nil =>
    rw [fractionChars, List.isEmpty_nil, if_pos rfl, List.nil_append,
      fraction_of_not_point negative whole fun c hc => (hhead c (mem_head?_of_take hc)).1]
    exact torn_exponent negative whole [] e n
  | cons d ds =>
    have hdigits := leadingDigits_take (d :: ds) fun c hc => (hhead c hc).2
    rw [fractionChars, List.isEmpty_cons, if_neg Bool.false_ne_true, List.cons_append]
    cases n with
    | zero => exact torn_number _
    | succ n =>
      rw [List.take_succ_cons, fraction, hdigits]
      cases (d :: ds).take n with
      | nil => exact torn_brokenNumber _
      | cons d' ds' => exact torn_exponent negative whole _ e _

/-- What is left of a number is a shorter number, or breaks off within it. -/
theorem torn_unsigned (l : Literal) (n : ℕ) :
    Torn (unsigned l.negative
      ((Digits.chars (Digits.ofNat l.whole) ++ afterWhole l).take n)) := by
  have hhead := head?_afterWhole l clear_nil
  rw [List.append_nil] at hhead
  unfold unsigned
  rw [leadingDigits_take (Digits.ofNat l.whole) hhead]
  match (Digits.ofNat l.whole).take n with
  | [] => exact torn_brokenNumber _
  | [d] => exact torn_fraction _ _ _ _ _
  | d :: d' :: ds =>
    by_cases hd : d = Digit.zero
    · simp only [hd, if_true]
      exact torn_gap _
    · simp only [hd, if_false]
      exact torn_fraction _ _ _ _ _

/-! ### What is left of a string or word -/

theorem torn_word (t : Token) (cut : Gap) (w : List Char) {n : ℕ} (h : n < w.length) :
    Torn (word t cut w (w.take n)) := by
  induction w generalizing n with
  | nil => cases h
  | cons c w ih =>
    cases n with
    | zero => exact torn_gap cut
    | succ n =>
      rw [List.take_succ_cons, word, if_pos rfl]
      exact ih (Nat.lt_of_succ_lt_succ h)

/-- A text that ends within a character of a string is a gap. -/
theorem string_take_textChar (c : Char) (done : List Char) {n : ℕ} (h : n < (textChar c).length) :
    string done none true ((textChar c).take n) = (gap (.cutText true), []) := by
  have hsize : c.toNat < 0x20 → (Nat.digitChar (c.toNat / 16)).utf8Size = 1 := by
    intro hc
    have hdigit : ∀ k < 2, (Nat.digitChar k).utf8Size = 1 := by decide
    exact hdigit _ (by omega)
  have hzero : '0'.utf8Size = 1 := rfl
  unfold textChar at h ⊢
  split_ifs at h ⊢ with h1 h2 h3 h4 h5 h6 h7 h8
  all_goals
    simp only [List.length_cons, List.length_nil] at h
    interval_cases n
  all_goals first
    | rfl
    | simp [string, bytes, hzero, hsize h8]

theorem string_take (s done : List Char) {n : ℕ} (h : n < (s.flatMap textChar).length + 1) :
    string done none true ((s.flatMap textChar ++ ['"']).take n) =
      (gap (.cutText true), []) := by
  induction s generalizing done n with
  | nil =>
    obtain rfl : n = 0 := by simpa using h
    rfl
  | cons c s ih =>
    rw [List.flatMap_cons, List.length_append] at h
    rw [List.flatMap_cons, List.append_assoc]
    by_cases hn : n < (textChar c).length
    · rw [List.take_append_of_le_length hn.le]
      exact string_take_textChar c done hn
    · obtain ⟨m, rfl⟩ := Nat.exists_eq_add_of_le (Nat.le_of_not_lt hn)
      rw [List.take_length_add_append, string_textChar]
      exact ih (c :: done) (by omega)

/-! ### What is left of a text -/

/-- What is read of the front of a token is what is left of it. -/
theorem leading_take {t : Token} (ht : t.isSound = true) {n : ℕ} (h : n + 1 < t.chars.length) :
    ∃ c cs, t.chars.take (n + 1) = c :: cs ∧ isSpace c = false ∧ Torn (leading c cs) := by
  cases t with
  | openList | closeList | openObject | closeObject | comma | colon =>
    simp only [chars, List.length_cons, List.length_nil] at h
    omega
  | null =>
    refine ⟨'n', ['u', 'l', 'l'].take n, rfl, rfl, ?_⟩
    exact torn_word .null .cutNull _ (Nat.lt_of_succ_lt_succ h)
  | flag b =>
    cases b with
    | false =>
      refine ⟨'f', ['a', 'l', 's', 'e'].take n, rfl, rfl, ?_⟩
      exact torn_word (.flag false) .cutFlag _ (Nat.lt_of_succ_lt_succ h)
    | true =>
      refine ⟨'t', ['r', 'u', 'e'].take n, rfl, rfl, ?_⟩
      exact torn_word (.flag true) .cutFlag _ (Nat.lt_of_succ_lt_succ h)
  | number l =>
    have htorn := torn_unsigned l
    obtain ⟨d, ds, hn, -⟩ := Digits.ofNat_eq_cons l.whole
    rw [chars, number_chars]
    cases hs : l.negative with
    | true =>
      rw [hs] at htorn
      exact ⟨'-', _, rfl, rfl, htorn n⟩
    | false =>
      rw [hs, hn] at htorn
      rw [hn]
      refine ⟨d.char, _, rfl, isSpace_digit d, ?_⟩
      rw [leading_digit]
      exact htorn (n + 1)
  | text s =>
    refine ⟨'"', (s.toList.flatMap textChar ++ ['"']).take n, rfl, rfl, ?_⟩
    show Torn (string [] none true _)
    rw [string_take]
    · exact torn_gap _
    · simp only [chars, textChars, List.length_cons, List.length_append, List.length_nil] at h
      omega
  | unpaired | gap _ => cases ht

/-- Nothing, or what is left of one token. -/
def Remnant (ts : List Token) : Prop := ts = [] ∨ ∃ t, ts = [t] ∧ t.isRemnant = true

theorem remnant_ofChars_take {t : Token} (ht : t.isSound = true) {n : ℕ}
    (h : n < t.chars.length) : Remnant (ofChars (t.chars.take n)) := by
  cases n with
  | zero =>
    rw [List.take_zero, ofChars_nil]
    exact .inl rfl
  | succ n =>
    obtain ⟨c, cs, hcs, hspace, hremnant, hrest⟩ := leading_take ht h
    rw [hcs, ofChars_cons hspace, hrest, ofChars_nil]
    exact .inr ⟨_, rfl, hremnant⟩

/-- **A text that ends too early is cut into the tokens before its end, and what is left of one.**
All tokens are there only if blanks are all that is missing. -/
theorem ofChars_take_of_spells {cs : List Char} {ts : List Token} (h : Spells cs ts) (n : ℕ) :
    ∃ k last, ofChars (cs.take n) = ts.take k ++ last ∧ Remnant last ∧
      (k < ts.length ∨ ∀ c ∈ cs.drop n, isSpace c = true) := by
  induction h generalizing n with
  | nil => exact ⟨0, [], by simp, .inl rfl, .inr (by simp)⟩
  | @space c cs ts hc h ih =>
    cases n with
    | zero =>
      obtain ⟨k, last, -, -, hmissing⟩ := ih 0
      refine ⟨0, [], by simp, .inl rfl, ?_⟩
      refine hmissing.imp Nat.zero_lt_of_lt fun hblank => ?_
      rw [List.drop_zero, List.forall_mem_cons]
      exact ⟨hc, hblank⟩
    | succ n =>
      rw [List.take_succ_cons, ofChars_space hc, List.drop_succ_cons]
      exact ih n
  | @token t cs ts ht hend h ih =>
    by_cases hn : n < t.chars.length
    · refine ⟨0, _, ?_, remnant_ofChars_take ht hn, .inl (Nat.zero_lt_succ _)⟩
      rw [List.take_append_of_le_length hn.le]
      rfl
    · obtain ⟨m, rfl⟩ := Nat.exists_eq_add_of_le (Nat.le_of_not_lt hn)
      obtain ⟨k, last, htokens, hlast, hmissing⟩ := ih m
      refine ⟨k + 1, last, ?_, hlast, ?_⟩
      · have hend' : t.EndsBefore (cs.take m) := fun l hl => (hend l hl).take m
        rw [List.take_length_add_append, ofChars_chars ht hend', htokens]
        rfl
      · rw [List.drop_length_add_append]
        exact hmissing.imp Nat.succ_lt_succ id

end Token

/-! ### What is followed of a text -/

namespace Draft

/-- Whether the outermost value is a gap, or is left open. -/
def isBroken : Draft → Bool
  | gap _ | list _ (some _) | object _ (some _) => true
  | _ => false

theorem isBroken_close (frame : Frame) (g : Gap) : (frame.close (some g)).isBroken = true := by
  cases frame <;> rfl

theorem isBroken_withoutKey (frame : Frame) (g : Gap) : (frame.withoutKey g).isBroken = true := by
  cases frame <;> rfl

theorem isBroken_abandon (g : Gap) {d : Draft} (h : d.isBroken = true) (frames : List Frame) :
    (abandon g d frames).isBroken = true := by
  induction frames generalizing d with
  | nil => exact h
  | cons frame frames ih => exact ih (isBroken_close _ g)

theorem isBroken_unfinished (w : Wanted) (frames : List Frame) :
    (unfinished w frames).isBroken = true := by
  unfold unfinished
  split
  · exact isBroken_abandon _ rfl _
  · exact isBroken_abandon _ rfl _
  · exact isBroken_abandon _ (isBroken_withoutKey _ _) _
  · exact isBroken_abandon _ (isBroken_close _ _) _
  · rfl

theorem beginValue_stuck {frames : List Frame} {t : Token} {d : Draft}
    (h : beginValue frames t = .stuck d) : d.isBroken = true := by
  unfold beginValue at h
  split at h
  · cases h
  · cases h
  · split at h
    · cases frames <;> cases h
    · cases h
      exact isBroken_abandon _ rfl _

theorem beginMember_stuck {frame : Frame} {frames : List Frame} {t : Token} {d : Draft}
    (h : beginMember frame frames t = .stuck d) : d.isBroken = true := by
  unfold beginMember at h
  split at h
  · cases h
  · cases h
    exact isBroken_abandon _ (isBroken_withoutKey _ _) _

theorem complete_ne_stuck (d e : Draft) (frames : List Frame) : complete d frames ≠ .stuck e := by
  cases frames <;> simp [complete]

/-- Where the text cannot be followed any further, the outermost value is left open. -/
theorem step_stuck {w : Wanted} {frames : List Frame} {t : Token} {d : Draft}
    (h : step w frames t = .stuck d) : d.isBroken = true := by
  unfold step at h
  split at h
  all_goals first
    | exact beginValue_stuck h
    | exact beginMember_stuck h
    | exact absurd h (complete_ne_stuck _ _ _)
    | cases h
  · exact isBroken_abandon _ rfl _
  · exact isBroken_abandon _ (isBroken_close _ _) _
  · rfl

/-- Tokens are followed to the end of the outermost value, to a fault, or to their own end. -/
theorem follow_append (w : Wanted) (frames : List Frame) (ts : List Token) :
    (∃ d rest, ∀ us, follow w frames (ts ++ us) = (d, rest ++ us)) ∨
      (∃ d, d.isBroken = true ∧ ∀ us, follow w frames (ts ++ us) = (d, [])) ∨
      ∃ v frames', ∀ us, follow w frames (ts ++ us) = follow v frames' us := by
  induction ts generalizing w frames with
  | nil => exact .inr (.inr ⟨w, frames, fun _ => rfl⟩)
  | cons t ts ih =>
    simp only [List.cons_append, follow]
    cases hstep : step w frames t with
    | on v frames' => exact ih v frames'
    | whole d => exact .inl ⟨d, ts, fun _ => rfl⟩
    | stuck d => exact .inr (.inl ⟨d, step_stuck hstep, fun _ => rfl⟩)

/-- Whether a draft is broken, or a lone number, which may be what is left of one. -/
def isTorn : Draft → Bool
  | number _ => true
  | d => d.isBroken

theorem isTorn_of_isBroken {d : Draft} (h : d.isBroken = true) : d.isTorn = true := by
  cases d <;> first | rfl | exact h

theorem beginValue_whole {frames : List Frame} {t : Token} {d : Draft}
    (ht : t.isRemnant = true) (h : beginValue frames t = .whole d) : d.isTorn = true := by
  cases t with
  | number l =>
    cases frames with
    | nil =>
      cases h
      rfl
    | cons => cases h
  | gap g => cases h
  | _ => cases ht

theorem beginMember_ne_whole (frame : Frame) (frames : List Frame) (t : Token) (d : Draft) :
    beginMember frame frames t ≠ .whole d := by
  unfold beginMember
  split <;> simp

/-- What is left of a token completes no list or object. -/
theorem step_whole {w : Wanted} {frames : List Frame} {t : Token} {d : Draft}
    (ht : t.isRemnant = true) (h : step w frames t = .whole d) : d.isTorn = true := by
  unfold step at h
  split at h
  all_goals first
    | exact beginValue_whole ht h
    | exact absurd h (beginMember_ne_whole _ _ _ _)
    | cases ht
    | cases h

theorem isTorn_follow_remnant (w : Wanted) (frames : List Frame) {ts : List Token}
    (h : Token.Remnant ts) : (follow w frames ts).1.isTorn = true := by
  rcases h with rfl | ⟨t, rfl, ht⟩
  · exact isTorn_of_isBroken (isBroken_unfinished w frames)
  · rw [follow]
    cases hstep : step w frames t with
    | on v frames' => exact isTorn_of_isBroken (isBroken_unfinished v frames')
    | whole d => exact step_whole ht hstep
    | stuck d => exact isTorn_of_isBroken (step_stuck hstep)

/-- What is followed of a document is left open where a token is missing. -/
theorem isTorn_follow_take (d : Json) {k : ℕ} (hk : k < d.tokens.length) {last : List Token}
    (hlast : Token.Remnant last) :
    (follow .value [] (d.tokens.take k ++ last)).1.isTorn = true := by
  have hwhole := follow_tokens d
  rw [← List.take_append_drop k d.tokens] at hwhole
  rcases follow_append .value [] (d.tokens.take k) with
    ⟨e, rest, he⟩ | ⟨e, hbroken, he⟩ | ⟨v, frames, he⟩
  · -- The document would be complete before its last token.
    rw [he] at hwhole
    have hdrop : rest ++ d.tokens.drop k = [] := congrArg Prod.snd hwhole
    have hlength := congrArg List.length hdrop
    simp only [List.length_append, List.length_drop, List.length_nil] at hlength
    omega
  · rw [he]
    exact isTorn_of_isBroken hbroken
  · rw [he]
    exact isTorn_follow_remnant v frames hlast

/-- **Whatever is torn off a document, what is followed of the rest is left open**, unless the
document is a number. -/
theorem isTorn_ofChars_take {cs : List Char} {d : Json} (h : Token.Spells cs d.tokens) {n : ℕ}
    (hn : ∃ c ∈ cs.drop n, Token.isSpace c = false) : (ofChars (cs.take n)).1.isTorn = true := by
  obtain ⟨k, last, htokens, hlast, hmissing⟩ := Token.ofChars_take_of_spells h n
  have hk : k < d.tokens.length := by
    refine hmissing.resolve_right fun hblank => ?_
    obtain ⟨c, hc, hspace⟩ := hn
    rw [hblank c hc] at hspace
    cases hspace
  rw [ofChars, htokens]
  exact isTorn_follow_take d hk hlast

end Draft

end ButtonStyle.Json
