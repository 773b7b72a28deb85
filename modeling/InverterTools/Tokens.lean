import InverterTools.Connection

/-! # The tokens of a line

The first half of `processRequest` cuts a request into tokens with `strtok_r` and ends every token
at the first CRLF in it.  `tokenise_line` says that on one line this gives the words of the line
and nothing else; `tokenise_length` that the cuts are made in place. -/

namespace InverterTools.Server

/-- The space that separates tokens. -/
abbrev space : UInt8 := 0x20

/-- The words of a line: its non-empty pieces between spaces. -/
def words (line : Bytes) : List Bytes := (line.splitOn space).filter (· ≠ [])

/-- The request that consists of the words of a line.  A line of spaces has one empty word, which
is the token that `processRequest` sees. -/
def lineRequest (line : Bytes) : Except Exn (Option RequestType × List Bytes) := do
  let type ← requestType ((words line).headD [])
  pure (some type, (words line).tail)

/-! ### The words of a string -/

theorem words_spaces_append {sp s : Bytes} (h : ∀ b ∈ sp, b = space) :
    words (sp ++ s) = words s := by
  induction sp with
  | nil => rfl
  | cons b sp ih =>
      obtain rfl := h b List.mem_cons_self
      rw [← ih fun b hb => h b (List.mem_cons_of_mem _ hb), words, List.cons_append,
        List.splitOn_cons_eq_if_modifyHead]
      simp [words]

theorem words_of_notMem {w : Bytes} (hw : w ≠ []) (h : space ∉ w) : words w = [w] := by
  rw [words, List.splitOn_eq_singleton h]
  simp [hw]

theorem words_append_space {w s : Bytes} (hw : w ≠ []) (h : space ∉ w) :
    words (w ++ space :: s) = w :: words s := by
  have hsplit : (w ++ space :: s).splitOn space = w :: s.splitOn space := by
    simp only [List.splitOn_eq_splitOnP]
    refine List.splitOnP_append_cons_of_forall_mem (fun b hb => ?_) space (by simp) s
    rw [beq_eq_false_iff_ne]
    rintro rfl
    exact h hb
  rw [words, hsplit, List.filter_cons_of_pos (by simpa using hw), words]

/-- How a string begins: it has spaces only, or one word that is its last, or a word and a space
behind it. -/
theorem spaces_word_cases (s : Bytes) : ∃ sp, (∀ b ∈ sp, b = space) ∧
    (s = sp ∨ ∃ w, w ≠ [] ∧ space ∉ w ∧ (s = sp ++ w ∨ ∃ t, s = sp ++ (w ++ space :: t))) := by
  have hs := List.takeWhile_append_dropWhile (p := (· == space)) (l := s)
  refine ⟨s.takeWhile (· == space), fun b hb => by simpa using List.mem_takeWhile_imp hb, ?_⟩
  rcases hrest : s.dropWhile (· == space) with _ | ⟨b, t⟩
  · rw [hrest, List.append_nil] at hs
    exact .inl hs.symm
  · have hb : b ≠ space := by
      have := List.dropWhile_get_zero_not (· == space) s (by simp [hrest])
      simpa [hrest] using this
    have hw : space ∉ (b :: t).takeWhile (· != space) := fun h => by
      simpa using List.mem_takeWhile_imp h
    refine .inr ⟨(b :: t).takeWhile (· != space), by simp [hb], hw, ?_⟩
    have happ := List.takeWhile_append_dropWhile (p := (· != space)) (l := b :: t)
    rcases hdrop : (b :: t).dropWhile (· != space) with _ | ⟨d, u⟩
    · rw [hdrop, List.append_nil] at happ
      rw [hrest] at hs
      exact .inl (by rw [happ, hs])
    · have hd : d = space := by
        have := List.dropWhile_get_zero_not (· != space) (b :: t) (by simp [hdrop])
        simpa [hdrop] using this
      rw [hdrop, hd] at happ
      rw [hrest] at hs
      exact .inr ⟨u, by rw [happ, hs]⟩

/-! ### `strtok_r` -/

theorem takeWhile_spaces {sp s : Bytes} (hsp : ∀ b ∈ sp, b = space) (hs : s.head? ≠ some space) :
    (sp ++ s).takeWhile (· == space) = sp ∧ (sp ++ s).dropWhile (· == space) = s := by
  have hsp' : ∀ b ∈ sp, (b == space) = true := fun b hb => by simp [hsp b hb]
  rw [List.takeWhile_append_of_pos hsp', List.dropWhile_append_of_pos hsp']
  cases s with
  | nil => simp
  | cons b s =>
      have hb : (b == space) = false := by simpa using hs
      simp [hb]

theorem strtokR_spaces {sp : Bytes} (hsp : ∀ b ∈ sp, b = space) : strtokR sp = none := by
  have := (takeWhile_spaces (s := []) hsp (by simp)).2
  rw [List.append_nil] at this
  simp only [strtokR, this]

theorem head?_ne_space {w : Bytes} (hw : w ≠ []) (h : space ∉ w) (s : Bytes) :
    (w ++ s).head? ≠ some space := by
  cases w with
  | nil => exact absurd rfl hw
  | cons b w =>
      rw [List.cons_append, List.head?_cons]
      rintro h'
      exact h (by simp [Option.some.inj h'])

theorem bne_space {w : Bytes} (h : space ∉ w) : ∀ b ∈ w, (b != space) = true := fun b hb => by
  rw [bne_iff_ne]
  rintro rfl
  exact h hb

theorem strtokR_last {sp w : Bytes} (hsp : ∀ b ∈ sp, b = space) (hw : w ≠ []) (h : space ∉ w) :
    strtokR (sp ++ w) = some ⟨sp, w, false, []⟩ := by
  obtain ⟨h1, h2⟩ := takeWhile_spaces hsp (by simpa using head?_ne_space hw h [])
  have h3 : w.takeWhile (· != space) = w := List.takeWhile_eq_self_iff.mpr (bne_space h)
  have h4 : w.dropWhile (· != space) = [] := List.dropWhile_eq_nil_iff.mpr (bne_space h)
  obtain ⟨b, t, rfl⟩ := List.exists_cons_of_ne_nil hw
  simp only [strtokR, h1, h2, h3, h4]

theorem strtokR_space {sp w s : Bytes} (hsp : ∀ b ∈ sp, b = space) (hw : w ≠ []) (h : space ∉ w) :
    strtokR (sp ++ (w ++ space :: s)) = some ⟨sp, w, true, s⟩ := by
  obtain ⟨h1, h2⟩ := takeWhile_spaces hsp (head?_ne_space hw h (space :: s))
  have h3 : (w ++ space :: s).takeWhile (· != space) = w := by
    rw [List.takeWhile_append_of_pos (bne_space h), List.takeWhile_cons_of_neg (by simp),
      List.append_nil]
  have h4 : (w ++ space :: s).dropWhile (· != space) = space :: s := by
    rw [List.dropWhile_append_of_pos (bne_space h), List.dropWhile_cons_of_neg (by simp)]
  obtain ⟨b, t, rfl⟩ := List.exists_cons_of_ne_nil hw
  rw [List.cons_append] at h1 h2 h3 h4 ⊢
  simp only [strtokR, h1, h2, h3, h4]

theorem strtokR_length {s : Bytes} {t : Strtok} (h : strtokR s = some t) :
    s.length = t.skipped.length + t.token.length + t.ended.toNat + t.rest.length ∧
      0 < t.token.length := by
  obtain ⟨sp, hsp, rfl | ⟨w, hw, hsw, rfl | ⟨u, rfl⟩⟩⟩ := spaces_word_cases s
  · rw [strtokR_spaces hsp] at h
    simp at h
  · rw [strtokR_last hsp hw hsw] at h
    obtain rfl := Option.some.inj h
    simpa using List.length_pos_of_ne_nil hw
  · rw [strtokR_space hsp hw hsw] at h
    obtain rfl := Option.some.inj h
    have := List.length_pos_of_ne_nil hw
    simp only [List.length_append, List.length_cons, Bool.toNat_true]
    omega

/-! ### The cut at the end of the line -/

theorem lineToken_of_not_isInfix {w : Bytes} (h : ¬ crlf <:+: w) : lineToken w = w := by
  simp only [lineToken, strstr_eq_none_iff.mpr h]

/-- A line without CRLF ends no later than the first CRLF of any string it begins. -/
theorem length_le_of_append_crlf {w t l u : Bytes} (h : ¬ crlf <:+: w)
    (heq : l ++ crlf ++ u = w ++ crlf ++ t) : w.length ≤ l.length := by
  by_contra hlt
  obtain ⟨m, rfl⟩ : l <+: w := by
    have hl : l <+: w ++ crlf ++ t := ⟨crlf ++ u, by rw [← heq, List.append_assoc]⟩
    have hw : w <+: w ++ crlf ++ t := ⟨crlf ++ t, by rw [List.append_assoc]⟩
    exact List.prefix_of_prefix_length_le hl hw (by omega)
  simp only [List.append_assoc, List.append_cancel_left_eq] at heq
  match m, heq with
  | [], _ => simp at hlt
  | [b], heq =>
      simp only [List.cons_append, List.nil_append, List.cons.injEq] at heq
      exact absurd heq.2.1 (by decide)
  | b :: c :: m, heq =>
      simp only [List.cons_append, List.nil_append, List.cons.injEq] at heq
      obtain ⟨rfl, rfl, -⟩ := heq
      exact h ⟨l, m, by simp⟩

/-- The first CRLF splits a string in one way only. -/
theorem append_crlf_inj {w t l u : Bytes} (hw : ¬ crlf <:+: w) (hl : ¬ crlf <:+: l)
    (heq : l ++ crlf ++ u = w ++ crlf ++ t) : l = w := by
  have hlen := le_antisymm (length_le_of_append_crlf hl heq.symm) (length_le_of_append_crlf hw heq)
  rw [List.append_assoc, List.append_assoc] at heq
  exact (List.append_inj heq hlen).1

theorem lineToken_append_crlf {w : Bytes} (h : ¬ crlf <:+: w) : lineToken (w ++ crlf) = w := by
  have hsome : (strstr crlf (w ++ crlf)).isSome :=
    strstr_isSome_iff.mpr (List.suffix_append w crlf).isInfix
  obtain ⟨i, hi⟩ := Option.isSome_iff_exists.mp hsome
  obtain ⟨⟨u, hu⟩, hlen⟩ := strstr_some hi
  have hle := length_le_of_append_crlf (t := []) h (hu.trans (List.append_nil _).symm)
  simp only [List.length_append, List.length_cons, List.length_nil, List.length_take] at hle hlen
  obtain rfl : i = w.length := by omega
  simp only [lineToken, hi, List.take_left]

theorem cutToken_length (w : Bytes) : (cutToken w).length = w.length := by
  unfold cutToken
  cases strstr crlf w <;> simp

/-! ### The token loop -/

theorem argumentLoop_nil (type : RequestType) (fuel : ℕ) (seen : Bytes) (args : List Bytes) :
    argumentLoop type fuel seen [] args = ⟨.ok (some type, args), seen⟩ := by
  cases fuel with
  | zero => simp [argumentLoop]
  | succ fuel => simp [argumentLoop, strtokR]

theorem argumentLoop_length (type : RequestType) : ∀ (fuel : ℕ) (seen s : Bytes)
    (args : List Bytes), (argumentLoop type fuel seen s args).text.length = seen.length + s.length
  | 0, seen, s, args => by simp [argumentLoop]
  | fuel + 1, seen, s, args => by
      rw [argumentLoop]
      cases ht : strtokR s with
      | none => simp
      | some t =>
          have hlen := (strtokR_length ht).1
          simp only [argumentLoop_length type fuel, List.length_append, cutToken_length]
          cases hended : t.ended <;> simp [hended] at hlen ⊢ <;> omega

theorem tokenise_length (s : Bytes) : (tokenise s).text.length = s.length := by
  unfold tokenise
  cases ht : strtokR s with
  | none => rfl
  | some t =>
      have hlen := (strtokR_length ht).1
      have hseen : (t.skipped ++ cutToken t.token ++ if t.ended then [0] else []).length +
          t.rest.length = s.length := by
        simp only [List.length_append, cutToken_length]
        cases hended : t.ended <;> simp [hended] at hlen ⊢ <;> omega
      dsimp only
      cases requestType (lineToken t.token) with
      | error x => exact List.length_append.trans hseen
      | ok type => exact (argumentLoop_length type _ _ _ _).trans hseen

theorem not_isInfix_of_isInfix {s t : Bytes} (h : ¬ crlf <:+: t) (hs : s <:+: t) : ¬ crlf <:+: s :=
  fun hc => h (hc.trans hs)

theorem word_isInfix (sp w u : Bytes) : w <:+: sp ++ (w ++ space :: u) := ⟨sp, space :: u, by simp⟩

theorem rest_isInfix (sp w u : Bytes) : u <:+: sp ++ (w ++ space :: u) :=
  ⟨sp ++ w ++ [space], [], by simp⟩

/-- A request ends with its line or with the CRLF behind it. -/
def LineEnd (tail : Bytes) : Prop := tail = [] ∨ tail = crlf

theorem lineToken_append_lineEnd {w tail : Bytes} (h : ¬ crlf <:+: w) (htail : LineEnd tail) :
    lineToken (w ++ tail) = w := by
  rcases htail with rfl | rfl
  · rw [List.append_nil, lineToken_of_not_isInfix h]
  · exact lineToken_append_crlf h

theorem space_notMem_append_lineEnd {w tail : Bytes} (h : space ∉ w) (htail : LineEnd tail) :
    space ∉ w ++ tail := by
  rw [List.mem_append, not_or]
  rcases htail with rfl | rfl
  · exact ⟨h, List.not_mem_nil⟩
  · exact ⟨h, by decide⟩

theorem words_spaces {sp : Bytes} (hsp : ∀ b ∈ sp, b = space) : words sp = [] := by
  rw [← List.append_nil sp, words_spaces_append hsp]
  rfl

theorem argumentLoop_line (type : RequestType) {tail : Bytes} (htail : LineEnd tail) :
    ∀ (fuel : ℕ) (seen s : Bytes) (args : List Bytes), (s ++ tail).length ≤ fuel → ¬ crlf <:+: s →
    (argumentLoop type fuel seen (s ++ tail) args).result = .ok (some type, args ++ words s)
  | 0, seen, s, args, hfuel, _ => by
      have hnil : s ++ tail = [] := List.length_eq_zero_iff.mp (by omega)
      obtain ⟨rfl, -⟩ := List.append_eq_nil_iff.mp hnil
      rw [argumentLoop, show words [] = [] from rfl, List.append_nil]
  | fuel + 1, seen, s, args, hfuel, hs => by
      obtain ⟨sp, hsp, rfl | ⟨w, hw, hsw, rfl | ⟨u, rfl⟩⟩⟩ := spaces_word_cases s
      · rw [words_spaces hsp, argumentLoop, List.append_nil]
        rcases htail with rfl | rfl
        · rw [List.append_nil, strtokR_spaces hsp]
        · have hline : lineToken crlf = [] := by decide
          simp only [strtokR_last hsp (by simp) (by decide : space ∉ crlf), argumentLoop_nil, hline]
          simp
      · have ht := strtokR_last hsp (by simp [hw]) (space_notMem_append_lineEnd hsw htail)
        have hline := lineToken_append_lineEnd
          (not_isInfix_of_isInfix hs (List.suffix_append sp w).isInfix) htail
        rw [words_spaces_append hsp, words_of_notMem hw hsw, List.append_assoc, argumentLoop]
        simp only [ht, argumentLoop_nil, hline, List.length_pos_of_ne_nil hw, if_true]
      · have ht := strtokR_space (s := u ++ tail) hsp hw hsw
        have hline := lineToken_of_not_isInfix
          (not_isInfix_of_isInfix hs (word_isInfix sp w u))
        have hu := not_isInfix_of_isInfix hs (rest_isInfix sp w u)
        have hlen : (u ++ tail).length ≤ fuel := by
          simp only [List.length_append, List.length_cons] at hfuel ⊢
          omega
        rw [words_spaces_append hsp, words_append_space hw hsw, List.append_assoc,
          List.append_assoc, List.cons_append, argumentLoop]
        simp only [ht, hline, List.length_pos_of_ne_nil hw, if_true]
        rw [argumentLoop_line type htail fuel _ u _ hlen hu]
        simp

/-- **The tokens of a request** are the words of its line, which is all there is, or ends with the
only CRLF: the first selects the request type, the others are the arguments.  Without CRLF a line of
spaces has no token. -/
theorem tokenise_lineEnd {line tail : Bytes} (h : ¬ crlf <:+: line) (htail : LineEnd tail)
    (htoken : words line ≠ [] ∨ tail = crlf) :
    (tokenise (line ++ tail)).result = lineRequest line := by
  obtain ⟨sp, hsp, rfl | ⟨w, hw, hsw, rfl | ⟨u, rfl⟩⟩⟩ := spaces_word_cases line
  · obtain rfl : tail = crlf := htoken.resolve_left fun hne => hne (words_spaces hsp)
    have ht := strtokR_last (w := crlf) hsp (by simp) (by decide)
    have hline : lineToken crlf = [] := by decide
    rw [tokenise, lineRequest]
    simp only [ht, hline, words_spaces hsp]
    rfl
  · have ht := strtokR_last hsp (by simp [hw]) (space_notMem_append_lineEnd hsw htail)
    have hline := lineToken_append_lineEnd
      (not_isInfix_of_isInfix h (List.suffix_append sp w).isInfix) htail
    rw [lineRequest, words_spaces_append hsp, words_of_notMem hw hsw, List.append_assoc, tokenise]
    simp only [ht, hline, List.headD_cons]
    cases requestType w with
    | error x => rfl
    | ok type => exact congrArg Tokenised.result (argumentLoop_nil type _ _ _)
  · have ht := strtokR_space (s := u ++ tail) hsp hw hsw
    have hline := lineToken_of_not_isInfix (not_isInfix_of_isInfix h (word_isInfix sp w u))
    have hu := not_isInfix_of_isInfix h (rest_isInfix sp w u)
    rw [lineRequest, words_spaces_append hsp, words_append_space hw hsw, List.append_assoc,
      List.append_assoc, List.cons_append, tokenise]
    simp only [ht, hline, List.headD_cons]
    cases requestType w with
    | error x => rfl
    | ok type => exact argumentLoop_line type htail _ _ u [] le_rfl hu

theorem tokenise_line {line : Bytes} (h : ¬ crlf <:+: line) :
    (tokenise (line ++ crlf)).result = lineRequest line :=
  tokenise_lineEnd h (.inr rfl) (.inr rfl)

theorem tokenise_spaces {line : Bytes} (h : words line = []) :
    (tokenise line).result = .ok (none, []) := by
  obtain ⟨sp, hsp, rfl | ⟨w, hw, hsw, rfl | ⟨u, rfl⟩⟩⟩ := spaces_word_cases line
  · rw [tokenise, strtokR_spaces hsp]
  · rw [words_spaces_append hsp, words_of_notMem hw hsw] at h
    cases h
  · rw [words_spaces_append hsp, words_append_space hw hsw] at h
    cases h

end InverterTools.Server
