import Dbml.Proofs.Yaml.Scalars
import Dbml.Yaml.Token

/-!
# Scanning inside of brackets

The scanner is followed from token to token (`Leads`). Inside of brackets no block is opened and
no token has to be a key (`Stands`), so that each mark is a token of its own (`leads_flowStart`,
`leads_flowEnd`, `leads_flowEntry`), and so are quoted texts and words (`leads_quoted`,
`leads_plain`). A short name before a colon is a key (`leads_name`).
-/

namespace Dbml.Yaml

open Json (stringChars)
open Text (IsPrintable IsPrintableChar)

namespace Scanner

variable {s : Scanner} {ch : Char} {cs rest : List Char} {before : List Token} {depth : Nat}

/-! ## From token to token -/

/-- Whether scanning leads from one state to another, of which `p` holds, in at most `n`
tokens. -/
def Leads (s : Scanner) (n : Nat) (p : Scanner → Prop) : Prop :=
  ∃ s' k, k ≤ n ∧ p s' ∧ ∀ fuel, run (fuel + k) s = run fuel s'

theorem Leads.bind {n m : Nat} {p q : Scanner → Prop} (h : Leads s n p)
    (h' : ∀ s', p s' → Leads s' m q) : Leads s (n + m) q := by
  obtain ⟨s₁, k, hk, hp, hrun⟩ := h
  obtain ⟨s₂, k', hk', hq, hrun'⟩ := h' s₁ hp
  refine ⟨s₂, k' + k, by omega, hq, fun fuel => ?_⟩
  rw [← Nat.add_assoc, hrun, hrun']

theorem Leads.imp {n : Nat} {p q : Scanner → Prop} (h : Leads s n p) (hpq : ∀ s', p s' → q s') :
    Leads s n q := by
  obtain ⟨s', k, hk, hp, hrun⟩ := h
  exact ⟨s', k, hk, hpq s' hp, hrun⟩

theorem Leads.mono {n m : Nat} {p : Scanner → Prop} (h : Leads s n p) (hnm : n ≤ m) :
    Leads s m p := by
  obtain ⟨s', k, hk, hp, hrun⟩ := h
  exact ⟨s', k, hk.trans hnm, hp, hrun⟩

/-- Where the scanner stands: before the text `rest`, after some tokens, last one first, and
inside of so many brackets. No block is open, and no token has to be a key. -/
structure Stands (s : Scanner) (rest : List Char) (before : List Token) (depth : Nat) : Prop where
  rest : s.cursor.rest = rest
  tokens : s.tokens = before
  depth : s.outerKeys.length = depth
  indent : s.indent = -1
  outerIndents : s.outerIndents = []
  key : ∀ key ∈ s.key, key.required = false
  outerKeys : ∀ outer ∈ s.outerKeys, ∀ key ∈ outer, key.required = false

/-- A key that is on this line and not too far back. -/
def SimpleKeyAt (s : Scanner) (key : SimpleKey) : Prop :=
  s.cursor.line ≤ key.line ∧ s.cursor.index ≤ key.index + SimpleKey.maxLength

theorem dropStaleKey_cases (c : Cursor) {key : Option SimpleKey}
    (h : ∀ k ∈ key, k.required = false) :
    dropStaleKey c key = some key ∨ dropStaleKey c key = some none := by
  cases key with
  | none => exact .inl rfl
  | some key =>
    rw [dropStaleKey, h key rfl]
    split
    · exact .inr rfl
    · exact .inl rfl

/-- Before each token, keys that are too far back are given up; the last one is kept if it is
near. -/
theorem exists_dropStaleKeys (h : s.Stands rest before depth) :
    ∃ s', s.dropStaleKeys = some s' ∧ s'.cursor = s.cursor ∧ s'.keyAllowed = s.keyAllowed ∧
      s'.Stands rest before depth ∧
      ∀ key ∈ s.key, s.SimpleKeyAt key → s'.key = some key := by
  have houter (keys : List (Option SimpleKey)) (hkeys : ∀ outer ∈ keys, ∀ key ∈ outer, key.required = false) :
      ∃ keys', keys.mapM (dropStaleKey s.cursor) = some keys' ∧ keys'.length = keys.length ∧
        ∀ outer ∈ keys', ∀ key ∈ outer, key.required = false := by
    induction keys with
    | nil => exact ⟨[], rfl, rfl, nofun⟩
    | cons key keys ih =>
      obtain ⟨hkey, hkeys⟩ := List.forall_mem_cons.mp hkeys
      obtain ⟨keys', hmap, hlen, hkeys'⟩ := ih hkeys
      rcases dropStaleKey_cases s.cursor hkey with hdrop | hdrop
      · exact ⟨key :: keys', by rw [List.mapM_cons, hdrop, hmap]; rfl, congrArg (· + 1) hlen,
          List.forall_mem_cons.mpr ⟨hkey, hkeys'⟩⟩
      · exact ⟨none :: keys', by rw [List.mapM_cons, hdrop, hmap]; rfl, congrArg (· + 1) hlen,
          List.forall_mem_cons.mpr ⟨nofun, hkeys'⟩⟩
  obtain ⟨keys, hkeys, hlen, hrequired⟩ := houter s.outerKeys h.outerKeys
  have hstands (key : Option SimpleKey) (hkey : ∀ k ∈ key, k.required = false) :
      Stands { s with key, outerKeys := keys } rest before depth :=
    ⟨h.rest, h.tokens, hlen.trans h.depth, h.indent, h.outerIndents, hkey, hrequired⟩
  rcases dropStaleKey_cases s.cursor h.key with hdrop | hdrop
  · refine ⟨{ s with key := s.key, outerKeys := keys }, ?_, rfl, rfl, hstands _ h.key, ?_⟩
    · rw [dropStaleKeys, hdrop, hkeys]
      rfl
    · exact fun key hkey _ => hkey
  · refine ⟨{ s with key := none, outerKeys := keys }, ?_, rfl, rfl, hstands _ nofun, ?_⟩
    · rw [dropStaleKeys, hdrop, hkeys]
      rfl
    · intro key hkey hnear
      rw [hkey, dropStaleKey, if_neg] at hdrop
      · cases hdrop
      · have := hnear.1
        have := hnear.2
        omega

/-- A character that a token starts with. -/
def StartsToken (c : Char) : Prop := IsPrintableChar c ∧ c ≠ ' ' ∧ c ≠ '#'

instance : DecidablePred StartsToken := fun _ => inferInstanceAs (Decidable (_ ∧ _ ∧ _))

theorem StartsToken.isBreak {c : Char} (h : StartsToken c) : isBreak c = false :=
  isBreak_of_printable h.1

theorem skipGap_of_next? (h : ∀ c ∈ s.cursor.next?, StartsToken c) (fuel : Nat) :
    skipGap (fuel + 1) s = s := by
  have hmark : ¬ (s.cursor.column = 0 ∧ s.cursor.next? = some '\ufeff') :=
    fun hbom => absurd (h _ hbom.2) (by decide)
  have hcomment : s.cursor.next? ≠ some '#' := fun hc => absurd (h _ hc) (by decide)
  have hblanks (tabs : Bool) :
      s.cursor.skipWhile (fun ch => ch == ' ' || (tabs && ch == '\t')) = s.cursor := by
    refine Cursor.skipWhile_of_next? fun c hc => ?_
    have hblank : c ≠ ' ' := (h c hc).2.1
    have htab : c ≠ '\t' := (h c hc).1.ne (by decide)
    simp [hblank, htab]
  have hbreak : (s.cursor.next?.map isBreak).getD false = false := by
    cases hc : s.cursor.next? with
    | none => rfl
    | some c => exact (h c hc).isBreak
  simp only [skipGap, if_neg hmark, hblanks, if_neg hcomment, hbreak, Bool.false_eq_true, if_false]

theorem Stands.unrollIndent (h : s.Stands rest before depth) (column : Int) :
    s.unrollIndent column = s := by
  rw [Scanner.unrollIndent, h.outerIndents, unrollIndents]
  split
  · rfl
  · rw [← h.outerIndents]

theorem Stands.next? (h : s.Stands (ch :: cs) before depth) : s.cursor.next? = some ch := by
  rw [Cursor.next?, h.rest]
  rfl

/-- Scanning a token: keys that are too far back are given up, and the token is read. -/
theorem leads_of_fetch (h : s.Stands (ch :: cs) before depth) (hch : StartsToken ch)
    {p : Scanner → Prop}
    (hfetch : ∀ s₁ : Scanner, s₁.cursor = s.cursor → s₁.keyAllowed = s.keyAllowed →
      s₁.Stands (ch :: cs) before depth →
      (∀ key ∈ s.key, s.SimpleKeyAt key → s₁.key = some key) → ∃ s', s₁.fetch ch = some s' ∧ p s') :
    Leads s 1 p := by
  obtain ⟨s₁, hdrop, hcursor, hallowed, hs₁, hkey⟩ := exists_dropStaleKeys h
  obtain ⟨s', hs', hp⟩ := hfetch s₁ hcursor hallowed hs₁ hkey
  refine ⟨s', 1, Nat.le_refl 1, hp, fun fuel => ?_⟩
  have hgap : skipGap (fuel + 1) s = s := by
    refine skipGap_of_next? (fun c hc => ?_) fuel
    rw [h.next?] at hc
    exact Option.some.inj hc ▸ hch
  simp only [run, hgap, hdrop, bind, Option.bind_some, hs₁.unrollIndent, hs₁.next?, hs']

/-! ## Tokens -/

theorem Stands.removeKey (h : s.Stands rest before depth) :
    s.removeKey = some { s with key := none } ∧
      Stands { s with key := none } rest before depth := by
  refine ⟨if_neg ?_, h.rest, h.tokens, h.depth, h.indent, h.outerIndents, nofun, h.outerKeys⟩
  cases hkey : s.key with
  | none => exact Bool.false_ne_true
  | some key => simp [h.key key hkey]

/-- The next token is remembered as a possible key, which need not be one. -/
theorem exists_saveKey (h : s.Stands rest before depth) :
    ∃ s', s.saveKey = some s' ∧ s'.cursor = s.cursor ∧ s'.keyAllowed = s.keyAllowed ∧
      s'.Stands rest before depth ∧
      (s.keyAllowed = true → ∃ key, s'.key = some key ∧ key.token = before.length ∧
        key.line = s.cursor.line ∧ key.index = s.cursor.index) := by
  cases hallowed : s.keyAllowed with
  | false =>
    refine ⟨s, ?_, rfl, hallowed, h, nofun⟩
    rw [saveKey, if_neg (Bool.eq_false_iff.mp hallowed)]
  | true =>
    have hrequired : (!s.inFlow && s.indent == s.cursor.column) = false := by
      have hindent : s.indent ≠ s.cursor.column := by
        have := h.indent
        omega
      simp [hindent]
    refine ⟨{ s with key := some ⟨false, before.length, s.cursor.index, s.cursor.line,
      s.cursor.column⟩ }, ?_, rfl, hallowed, ?_, fun _ => ⟨_, rfl, rfl, rfl, rfl⟩⟩
    · rw [saveKey, if_pos hallowed, h.removeKey.1]
      simp only [hrequired, h.tokens]
      rfl
    · refine ⟨h.rest, h.tokens, h.depth, h.indent, h.outerIndents, fun key hkey => ?_, h.outerKeys⟩
      cases hkey
      rfl

theorem Stands.atMark (h : s.Stands (ch :: cs) before depth) (mark : Char)
    (hch : ch ≠ mark) : s.cursor.atMark mark = false := Cursor.atMark_of_ne h.rest hch

/-- An opening bracket. -/
theorem leads_flowStart {t : Token}
    (ht : ch = '[' ∧ t = .flowSequenceStart ∨ ch = '\x7b' ∧ t = .flowMappingStart)
    (h : s.Stands (ch :: cs) before depth) :
    Leads s 1 fun s' => s'.Stands cs (t :: before) (depth + 1) ∧ s'.keyAllowed = true := by
  have hch : StartsToken ch := by rcases ht with ⟨rfl, -⟩ | ⟨rfl, -⟩ <;> decide
  refine leads_of_fetch h hch fun s₁ hcursor hallowed hs₁ _ => ?_
  have hfetch : s₁.fetch ch = s₁.fetchFlowStart t := by
    rcases ht with ⟨rfl, rfl⟩ | ⟨rfl, rfl⟩ <;>
      simp [fetch, hs₁.atMark '-' (by decide), hs₁.atMark '.' (by decide)]
  obtain ⟨s₂, hsave, -, -, hs₂, -⟩ := exists_saveKey hs₁
  refine ⟨{ (s₂.allowKey true).take 1 t with key := none, outerKeys := s₂.key :: s₂.outerKeys },
    ?_, ⟨?_, ?_, ?_, hs₂.indent, hs₂.outerIndents, nofun, ?_⟩, rfl⟩
  · rw [hfetch, fetchFlowStart, hsave]
    rfl
  · change (s₂.cursor.skipN 1).rest = cs
    rw [Cursor.rest_skipN, hs₂.rest]
    rfl
  · exact congrArg (t :: ·) hs₂.tokens
  · exact congrArg (· + 1) hs₂.depth
  · exact List.forall_mem_cons.mpr ⟨hs₂.key, hs₂.outerKeys⟩

/-- A closing bracket. -/
theorem leads_flowEnd {t : Token}
    (ht : ch = ']' ∧ t = .flowSequenceEnd ∨ ch = '\x7d' ∧ t = .flowMappingEnd)
    (h : s.Stands (ch :: cs) before (depth + 1)) :
    Leads s 1 (·.Stands cs (t :: before) depth) := by
  have hch : StartsToken ch := by rcases ht with ⟨rfl, -⟩ | ⟨rfl, -⟩ <;> decide
  refine leads_of_fetch h hch fun s₁ hcursor hallowed hs₁ _ => ?_
  have hfetch : s₁.fetch ch = s₁.fetchFlowEnd t := by
    rcases ht with ⟨rfl, rfl⟩ | ⟨rfl, rfl⟩ <;>
      simp [fetch, hs₁.atMark '-' (by decide), hs₁.atMark '.' (by decide)]
  obtain ⟨key, outerKeys, houter⟩ := List.exists_cons_of_length_eq_add_one hs₁.depth
  have hkeys := hs₁.outerKeys
  rw [houter] at hkeys
  obtain ⟨hkey, hkeys⟩ := List.forall_mem_cons.mp hkeys
  refine ⟨{ ({ s₁ with key := none }.allowKey false).take 1 t with key, outerKeys },
    ?_, ⟨?_, ?_, ?_, hs₁.indent, hs₁.outerIndents, hkey, hkeys⟩⟩
  · rw [hfetch, fetchFlowEnd, hs₁.removeKey.1]
    simp only [bind, Option.bind_some, allowKey, take, push, houter]
    rfl
  · change (s₁.cursor.skipN 1).rest = cs
    rw [Cursor.rest_skipN, hs₁.rest]
    rfl
  · exact congrArg (t :: ·) hs₁.tokens
  · have hdepth := hs₁.depth
    rw [houter] at hdepth
    exact Nat.succ.inj hdepth

theorem leads_flowEntry (h : s.Stands (',' :: cs) before depth) :
    Leads s 1 fun s' => s'.Stands cs (.flowEntry :: before) depth ∧ s'.keyAllowed = true := by
  refine leads_of_fetch h (by decide) fun s₁ hcursor hallowed hs₁ _ => ?_
  have hfetch : s₁.fetch ',' = s₁.fetchFlowEntry := by
    simp [fetch, hs₁.atMark '-' (by decide), hs₁.atMark '.' (by decide)]
  obtain ⟨hremove, hs₂⟩ := hs₁.removeKey
  refine ⟨({ s₁ with key := none }.allowKey true).take 1 .flowEntry, ?_,
    ⟨?_, ?_, hs₂.depth, hs₂.indent, hs₂.outerIndents, hs₂.key, hs₂.outerKeys⟩, rfl⟩
  · rw [hfetch, fetchFlowEntry, hremove]
    rfl
  · change (s₁.cursor.skipN 1).rest = cs
    rw [Cursor.rest_skipN, hs₁.rest]
    rfl
  · exact congrArg (Token.flowEntry :: ·) hs₁.tokens

/-- A quoted text, which is remembered as a key where one may start. -/
theorem leads_quoted {t : String} (ht : IsPrintable t)
    (h : s.Stands (stringChars t ++ cs) before depth) :
    Leads s 1 fun s' => s'.Stands cs (.scalar t .quoted :: before) depth ∧
      (s.keyAllowed = true → ∃ key, s'.key = some key ∧ key.token = before.length ∧
        s'.cursor.line = key.line ∧
        s'.cursor.index ≤ key.index + 4 * (stringChars t).length) := by
  refine leads_of_fetch h (by decide : StartsToken '"') fun s₁ hcursor hallowed hs₁ _ => ?_
  have hfetch : s₁.fetch '"' = s₁.fetchQuotedScalar false := by
    simp [fetch, hs₁.atMark '-' (by decide), hs₁.atMark '.' (by decide)]
  obtain ⟨s₂, hsave, hcursor₂, hallowed₂, hs₂, hkey⟩ := exists_saveKey hs₁
  have hscan := quotedScalar_stringChars ht hs₂.rest
  refine ⟨{ (s₂.allowKey false).push (.scalar t .quoted) with
    cursor := s₂.cursor.skipN (stringChars t).length }, ?_,
    ⟨?_, ?_, hs₂.depth, hs₂.indent, hs₂.outerIndents, hs₂.key, hs₂.outerKeys⟩, fun hs => ?_⟩
  · rw [hfetch, fetchQuotedScalar, hsave]
    simp only [bind, Option.bind_some, hscan]
    rfl
  · change (s₂.cursor.skipN _).rest = cs
    rw [Cursor.rest_skipN, hs₂.rest]
    exact List.drop_left
  · exact congrArg (Token.scalar t .quoted :: ·) hs₂.tokens
  · obtain ⟨key, hkey, htoken, hline, hindex⟩ := hkey (hallowed.trans hs)
    refine ⟨key, hkey, htoken, ?_, ?_⟩
    · change (s₂.cursor.skipN _).line = _
      rw [Cursor.line_skipN, hcursor₂, hline]
    · rw [hindex, ← hcursor₂]
      exact Cursor.index_skipN_le _ _

theorem Stands.inFlow (h : s.Stands rest before depth) : s.inFlow = decide (0 < depth) := by
  have hdepth := h.depth
  rw [Scanner.inFlow]
  cases houter : s.outerKeys with
  | nil =>
    rw [houter] at hdepth
    subst hdepth
    rfl
  | cons outer outerKeys =>
    rw [houter] at hdepth
    subst hdepth
    rfl

/-- Whether a text starts as a word does: with a letter or a digit, or with a minus before a
digit. -/
def StartsWord (cs : List Char) : Prop :=
  ∃ c rest, cs = c :: rest ∧
    (c.isAlphanum = true ∨ c = '-' ∧ ∃ d digits, rest = d :: digits ∧ d.isDigit = true)

theorem isAlphanum_ne {c c' : Char} (h : c.isAlphanum = true) (h' : c'.isAlphanum = false) :
    c ≠ c' := fun hc => Bool.false_ne_true (h'.symm.trans (hc ▸ h))

/-- A word is read as a plain scalar. -/
theorem fetch_word (h : s.Stands (ch :: cs) before depth) (hword : StartsWord (ch :: cs)) :
    s.fetch ch = s.fetchPlainScalar := by
  obtain ⟨c, rest, hcs, hstart⟩ := hword
  obtain ⟨rfl, rfl⟩ := List.cons.inj hcs
  rcases hstart with hletter | ⟨rfl, d, digits, rfl, hd⟩
  · have hne (c' : Char) (h' : c'.isAlphanum = false) : ch ≠ c' := isAlphanum_ne hletter h'
    have hgap : isGap (some ch) = false := by
      simp [isGap, isBlank, isBreak, hne ' ' rfl, hne '\t' rfl, hne '\n' rfl, hne '\r' rfl,
        hne '\u0085' rfl, hne '\u2028' rfl, hne '\u2029' rfl]
    have hindicator : isIndicator ch = false := by
      have hall : "-?:,[]\x7b\x7d#&*!|>'\"%@`".toList.all (!·.isAlphanum) = true := by decide
      rw [isIndicator, List.contains_eq_mem, decide_eq_false_iff_not]
      exact fun hmem => hne ch (Bool.not_eq_true' _ ▸ List.all_eq_true.mp hall ch hmem) rfl
    have hplain (flow : Bool) (next : Option Char) : startsPlain flow ch next = true := by
      simp [startsPlain, hgap, hindicator]
    simp [fetch, h.atMark '-' (hne '-' rfl), h.atMark '.' (hne '.' rfl), hne '%' rfl, hne '[' rfl,
      hne ']' rfl, hne '\x7b' rfl, hne '\x7d' rfl, hne ',' rfl, hne '-' rfl, hne '?' rfl,
      hne ':' rfl, hne '*' rfl, hne '&' rfl, hne '!' rfl, hne '|' rfl, hne '>' rfl,
      hne '\'' rfl, hne '"' rfl, hplain]
  · have hne (c' : Char) (h' : c'.isDigit = false) : d ≠ c' :=
      fun hc => Bool.false_ne_true (h'.symm.trans (hc ▸ hd))
    have hnext : s.cursor.ahead? 1 = some d := by
      rw [Cursor.ahead?, h.rest]
      rfl
    have hmark : s.cursor.atMark '-' = false := by
      simp [Cursor.atMark, h.rest, hne '-' rfl]
    have hblank : isBlank d = false := by simp [isBlank, hne ' ' rfl, hne '\t' rfl]
    have hgap : isGap (some d) = false := by
      simp [isGap, hblank, isBreak, hne '\n' rfl, hne '\r' rfl, hne '\u0085' rfl,
        hne '\u2028' rfl, hne '\u2029' rfl]
    have hplain (flow : Bool) : startsPlain flow '-' (some d) = true := by
      simp [startsPlain, hblank]
    simp [fetch, hmark, h.atMark '.' (by decide), hnext, hgap, hplain]

/-- A word. -/
theorem leads_plain {t : String} (ht : IsWord t) (hstarts : StartsWord t.toList)
    (h : s.Stands (t.toList ++ cs) before depth)
    (hend : EndsWord (0 < depth) cs) :
    Leads s 1 (·.Stands cs (.scalar t .plain :: before) depth) := by
  obtain ⟨ch, rest, hrest, hch⟩ := hstarts
  have hfirst : IsWordChar ch := ht ch (hrest ▸ List.mem_cons_self)
  have hstarts : StartsToken ch := ⟨hfirst.printable, hfirst.ne (by decide), hfirst.ne (by decide)⟩
  have hword : StartsWord (ch :: (rest ++ cs)) := by
    refine ⟨ch, rest ++ cs, rfl, hch.imp_right ?_⟩
    rintro ⟨hminus, d, digits, rfl, hd⟩
    exact ⟨hminus, d, digits ++ cs, rfl, hd⟩
  have htext : t.toList ++ cs = ch :: (rest ++ cs) := by rw [hrest, List.cons_append]
  rw [htext] at h
  refine leads_of_fetch h hstarts fun s₁ hcursor hallowed hs₁ _ => ?_
  obtain ⟨s₂, hsave, hcursor₂, hallowed₂, hs₂, -⟩ := exists_saveKey hs₁
  have hscan : plainScalar s₂.inFlow (s₂.indent + 1) s₂.cursor =
      some (t, false, s₂.cursor.skipN t.toList.length) :=
    plainScalar_word ht (hs₂.inFlow ▸ hend) (hs₂.rest.trans htext.symm) _
  refine ⟨{ (s₂.allowKey false).push (.scalar t .plain) with
    cursor := s₂.cursor.skipN t.toList.length }, ?_,
    ⟨?_, ?_, hs₂.depth, hs₂.indent, hs₂.outerIndents, hs₂.key, hs₂.outerKeys⟩⟩
  · rw [fetch_word hs₁ hword, fetchPlainScalar, hsave]
    simp only [bind, Option.bind_some, hscan]
    rfl
  · change (s₂.cursor.skipN _).rest = cs
    rw [Cursor.rest_skipN, hs₂.rest, ← htext]
    exact List.drop_left
  · exact congrArg (Token.scalar t .plain :: ·) hs₂.tokens

/-- A colon after a text that is remembered as a key. The mark of the key is put in front of it. -/
theorem leads_value {t : String} {key : SimpleKey}
    (h : s.Stands (':' :: cs) (.scalar t .quoted :: before) (depth + 1)) (hkey : s.key = some key)
    (htoken : key.token = before.length) (hnear : s.SimpleKeyAt key) :
    Leads s 1 (·.Stands cs (.value :: .scalar t .quoted :: .key :: before) (depth + 1)) := by
  refine leads_of_fetch h (by decide) fun s₁ hcursor hallowed hs₁ hkept => ?_
  have hflow : s₁.inFlow = true := by
    obtain ⟨outer, outerKeys, houter⟩ := List.exists_cons_of_length_eq_add_one hs₁.depth
    rw [inFlow, houter]
    rfl
  have hfetch : s₁.fetch ':' = s₁.fetchValue := by
    simp [fetch, hs₁.atMark '-' (by decide), hs₁.atMark '.' (by decide), hflow]
  have hinsert : s₁.insert key.token .key =
      { s₁ with tokens := .scalar t .quoted :: .key :: before } := by
    rw [insert, hs₁.tokens, htoken, List.length_cons, Nat.add_sub_cancel_left]
    rfl
  have hroll : (s₁.insert key.token .key).rollIndent key.column key.token .blockMappingStart =
      { s₁ with tokens := .scalar t .quoted :: .key :: before } := by
    rw [← hinsert]
    refine if_neg fun hblock => ?_
    have hinside : (s₁.insert key.token .key).inFlow = true := hflow
    simp [hinside] at hblock
  refine ⟨({ s₁ with tokens := .scalar t .quoted :: .key :: before, key := none }.allowKey
    false).take 1 .value, ?_, ⟨?_, rfl, hs₁.depth, hs₁.indent, hs₁.outerIndents, ?_, hs₁.outerKeys⟩⟩
  · rw [hfetch, fetchValue, hkept key hkey hnear]
    simp only [hroll]
  · change (s₁.cursor.skipN 1).rest = cs
    rw [Cursor.rest_skipN, hs₁.rest]
    rfl
  · change ∀ key ∈ (none : Option SimpleKey), key.required = false
    nofun

/-- A name and the colon after it, if the name is short. -/
theorem leads_name {name : String} (hname : IsPrintable name)
    (hshort : 4 * (stringChars name).length ≤ SimpleKey.maxLength)
    (h : s.Stands (stringChars name ++ ':' :: cs) before (depth + 1))
    (hallowed : s.keyAllowed = true) :
    Leads s 2 (·.Stands cs (.value :: .scalar name .quoted :: .key :: before) (depth + 1)) := by
  refine Leads.bind (n := 1) (m := 1) (leads_quoted hname h) fun s' hs' => ?_
  obtain ⟨hs', hkey⟩ := hs'
  obtain ⟨key, hkey, htoken, hline, hindex⟩ := hkey hallowed
  exact leads_value hs' hkey htoken ⟨hline.le, by omega⟩

end Scanner

end Dbml.Yaml
