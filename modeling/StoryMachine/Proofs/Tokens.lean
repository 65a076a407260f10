import Mathlib.Data.List.Nodup
import Mathlib.Data.List.Perm.Basic
import StoryMachine.Dictionary

/-!
# Words of a line

* `Token.Stands token input` : the word stands in the line; `Token.Takes token i` : it takes up the byte at an
  index;
* `Dictionary.Breaks`, `MaximalRun` : bytes that end a word, and runs of others that are as long as they can be;
  `Splits separators input tokens` : what the words of a line are;
* `Piece` : a separator, or a maximal run. Pieces that meet are the same (`Piece.eq_of_takes`), so that the words
  of a line are its pieces (`SplitsFrom.mem_iff`), and a list of them in order is determined by the line
  (`SplitsFrom.unique`);
* `splitsFrom_tokensFrom` : the words of the rest of a line that continues an open word;
* `tokens_splits` : **a line is split into its words, and in one way only.**
-/

namespace StoryMachine

/-! ## Words in their line -/

namespace Token

/-- The word stands in the line, where it says. -/
def Stands (token : Token) (input : List UInt8) : Prop :=
  ∃ before behind, input = before ++ token.word ++ behind ∧ token.start = before.length

/-- The word takes up the byte at an index. -/
def Takes (token : Token) (i : Nat) : Prop :=
  token.start ≤ i ∧ i < token.start + token.word.length

section
variable {token other : Token} {input : List UInt8} (h : token.Stands input)
include h

theorem Stands.word_eq : token.word = (input.drop token.start).take token.word.length := by
  obtain ⟨before, behind, rfl, hstart⟩ := h
  simp [hstart]

/-- A word is where it begins and how long it is. -/
theorem Stands.unique (hother : other.Stands input) (hstart : token.start = other.start)
    (hlength : token.word.length = other.word.length) : token = other := by
  have hword : token.word = other.word := by
    rw [h.word_eq, hother.word_eq, hstart, hlength]
  obtain ⟨word, start⟩ := token
  obtain ⟨word', start'⟩ := other
  exact congrArg₂ Token.mk hword hstart

theorem Stands.exists_byte {i : Nat} (hi : token.Takes i) : ∃ byte ∈ token.word, input[i]? = some byte := by
  obtain ⟨hle, hlt⟩ := hi
  have hinside : i - token.start < token.word.length := by omega
  refine ⟨token.word[i - token.start], List.getElem_mem _, ?_⟩
  obtain ⟨before, behind, rfl, hstart⟩ := h
  rw [List.append_assoc, List.getElem?_append_right (by omega), ← hstart, List.getElem?_append_left hinside,
    List.getElem?_eq_getElem hinside]

theorem Stands.mem_of_takes {i : Nat} {byte : UInt8} (hi : token.Takes i) (hbyte : input[i]? = some byte) :
    byte ∈ token.word := by
  obtain ⟨found, hmem, hfound⟩ := h.exists_byte hi
  rw [hbyte] at hfound
  cases hfound
  exact hmem

end

end Token

namespace Dictionary

/-! ## What the words of a line are -/

/-- The byte ends a word: it is a blank or a separator. -/
def Breaks (separators : List UInt8) (byte : UInt8) : Prop :=
  byte = Text.space ∨ byte ∈ separators

/-- A run of bytes that are neither blanks nor separators, with no such byte before or behind it. -/
structure MaximalRun (separators input : List UInt8) (token : Token) : Prop where
  inside : ∀ byte ∈ token.word, ¬ Breaks separators byte
  before : ∀ i byte, i + 1 = token.start → input[i]? = some byte → Breaks separators byte
  behind : ∀ byte, input[token.start + token.word.length]? = some byte → Breaks separators byte

/-- The words of a line: they stand in it one behind the other, are not empty and have no blanks. Every separator
that is not a blank is a word of its own, every other word is a maximal run, and every byte that is not a blank
belongs to exactly one word. -/
structure Splits (separators input : List UInt8) (tokens : List Token) : Prop where
  ordered : tokens.Pairwise fun token next => token.start + token.word.length ≤ next.start
  stands : ∀ token ∈ tokens, token.Stands input
  nonempty : ∀ token ∈ tokens, token.word ≠ []
  no_space : ∀ token ∈ tokens, Text.space ∉ token.word
  separator : ∀ i byte, input[i]? = some byte → byte ∈ separators → byte ≠ Text.space → ⟨[byte], i⟩ ∈ tokens
  run : ∀ token ∈ tokens, (∃ byte ∈ separators, token.word = [byte]) ∨ MaximalRun separators input token
  exactly_one : ∀ i byte, input[i]? = some byte → byte ≠ Text.space →
    ∃! token, token ∈ tokens ∧ token.Takes i

/-- A part of a line that can be a word of it: a separator, or a maximal run. -/
structure Piece (separators input : List UInt8) (token : Token) : Prop where
  stands : token.Stands input
  nonempty : token.word ≠ []
  kind : (∃ byte ∈ separators, byte ≠ Text.space ∧ token.word = [byte]) ∨ MaximalRun separators input token

section
variable {separators input : List UInt8} {token other : Token}

/-- A maximal run goes as far as any run that it meets. -/
theorem MaximalRun.contains (h : MaximalRun separators input token) (hstands : other.Stands input)
    (hinside : ∀ byte ∈ other.word, ¬ Breaks separators byte) {i : Nat} (hi : token.Takes i)
    (hother : other.Takes i) :
    token.start ≤ other.start ∧
      other.start + other.word.length ≤ token.start + token.word.length := by
  obtain ⟨hle, hlt⟩ := hi
  obtain ⟨hle', hlt'⟩ := hother
  constructor
  · by_contra hbefore
    obtain ⟨byte, hmem, hbyte⟩ := hstands.exists_byte (i := token.start - 1) ⟨by omega, by omega⟩
    exact hinside byte hmem (h.before _ byte (by omega) hbyte)
  · by_contra hbehind
    obtain ⟨byte, hmem, hbyte⟩ :=
      hstands.exists_byte (i := token.start + token.word.length) ⟨by omega, by omega⟩
    exact hinside byte hmem (h.behind byte hbyte)

theorem Piece.separator {i : Nat} {byte : UInt8} (hbyte : input[i]? = some byte) (hmem : byte ∈ separators)
    (hspace : byte ≠ Text.space) : Piece separators input ⟨[byte], i⟩ := by
  obtain ⟨hi, rfl⟩ := List.getElem?_eq_some_iff.mp hbyte
  refine ⟨⟨input.take i, input.drop (i + 1), ?_, ?_⟩, by simp, .inl ⟨_, hmem, hspace, rfl⟩⟩
  · simp
  · simp
    omega

/-- **Pieces that meet are the same.** -/
theorem Piece.eq_of_takes (h : Piece separators input token) (hother : Piece separators input other) {i : Nat}
    (hi : token.Takes i) (hi' : other.Takes i) : token = other := by
  obtain ⟨byte, hmem, hbyte⟩ := h.stands.exists_byte hi
  have hmem' := hother.stands.mem_of_takes hi' hbyte
  rcases h.kind with ⟨separator, hseparator, -, hword⟩ | hrun <;>
    rcases hother.kind with ⟨separator', hseparator', -, hword'⟩ | hrun'
  · obtain ⟨hle, hlt⟩ := hi
    obtain ⟨hle', hlt'⟩ := hi'
    simp only [hword, hword', List.length_singleton] at hlt hlt'
    exact h.stands.unique hother.stands (by omega) (by rw [hword, hword']; rfl)
  · -- a run has no separator
    rw [hword, List.mem_singleton] at hmem
    exact absurd (.inr (hmem ▸ hseparator)) (hrun'.inside byte hmem')
  · rw [hword', List.mem_singleton] at hmem'
    exact absurd (.inr (hmem' ▸ hseparator')) (hrun.inside byte hmem)
  · have hfirst := hrun.contains hother.stands hrun'.inside hi hi'
    have hsecond := hrun'.contains h.stands hrun.inside hi' hi
    exact h.stands.unique hother.stands (by omega) (by omega)

theorem Piece.takes_start (h : Piece separators input token) : token.Takes token.start :=
  ⟨Nat.le_refl _, Nat.lt_add_of_pos_right (List.length_pos_of_ne_nil h.nonempty)⟩

theorem Piece.space_not_mem (h : Piece separators input token) : Text.space ∉ token.word := by
  rcases h.kind with ⟨byte, -, hspace, hword⟩ | hrun
  · rw [hword, List.mem_singleton]
    exact hspace.symm
  · exact fun hmem => hrun.inside _ hmem (.inl rfl)

end

/-! ## The words from an index on -/

/-- The pieces of a line from an index on, in order. No byte but blanks is left out. -/
structure SplitsFrom (separators input : List UInt8) (index : Nat) (tokens : List Token) : Prop where
  ordered : tokens.Pairwise fun token next => token.start + token.word.length ≤ next.start
  pieces : ∀ token ∈ tokens, index ≤ token.start ∧ Piece separators input token
  taken : ∀ i byte, index ≤ i → input[i]? = some byte → byte ≠ Text.space → ∃ token ∈ tokens, token.Takes i

section
variable {separators input : List UInt8} {index : Nat} {token : Token} {tokens others : List Token}

theorem SplitsFrom.nil (h : input.length ≤ index) : SplitsFrom separators input index [] := by
  refine ⟨.nil, by simp, ?_⟩
  intro i byte hi hbyte
  rw [List.getElem?_eq_none (by omega)] at hbyte
  cases hbyte

theorem SplitsFrom.skip (h : SplitsFrom separators input (index + 1) tokens)
    (hspace : input[index]? = some Text.space) : SplitsFrom separators input index tokens := by
  refine ⟨h.ordered, fun token htoken => ?_, fun i byte hi hbyte hne => ?_⟩
  · obtain ⟨hle, hpiece⟩ := h.pieces token htoken
    exact ⟨by omega, hpiece⟩
  · by_cases heq : i = index
    · rw [heq, hspace] at hbyte
      exact absurd (Option.some.inj hbyte).symm hne
    · exact h.taken i byte (by omega) hbyte hne

theorem SplitsFrom.cons (h : SplitsFrom separators input (token.start + token.word.length) tokens)
    (hpiece : Piece separators input token) : SplitsFrom separators input token.start (token :: tokens) := by
  refine ⟨.cons (fun next hnext => (h.pieces next hnext).1) h.ordered, ?_, fun i byte hi hbyte hne => ?_⟩
  · rw [List.forall_mem_cons]
    refine ⟨⟨Nat.le_refl _, hpiece⟩, fun next hnext => ?_⟩
    obtain ⟨hle, hnextPiece⟩ := h.pieces next hnext
    exact ⟨by omega, hnextPiece⟩
  · by_cases htakes : token.Takes i
    · exact ⟨token, by simp, htakes⟩
    · have hbehind : token.start + token.word.length ≤ i := Nat.not_lt.mp fun hlt => htakes ⟨hi, hlt⟩
      obtain ⟨next, hnext, hnextTakes⟩ := h.taken i byte hbehind hbyte hne
      exact ⟨next, by simp [hnext], hnextTakes⟩

/-- The words of a line are its pieces. -/
theorem SplitsFrom.mem_iff (h : SplitsFrom separators input 0 tokens) (token : Token) :
    token ∈ tokens ↔ Piece separators input token := by
  constructor
  · exact fun hmem => (h.pieces token hmem).2
  · intro hpiece
    have htakes := hpiece.takes_start
    obtain ⟨byte, hmem, hbyte⟩ := hpiece.stands.exists_byte htakes
    have hne : byte ≠ Text.space := fun heq => hpiece.space_not_mem (heq ▸ hmem)
    obtain ⟨found, hfound, hfoundTakes⟩ := h.taken _ byte (Nat.zero_le _) hbyte hne
    rwa [hpiece.eq_of_takes (h.pieces found hfound).2 htakes hfoundTakes]

/-- **There is one way to list the pieces of a line in order.** -/
theorem SplitsFrom.unique (h : SplitsFrom separators input 0 tokens)
    (hothers : SplitsFrom separators input 0 others) : tokens = others := by
  -- a piece does not end where it begins, so none is before itself, and no two are before each other
  have hirrefl : ∀ token, Piece separators input token → 0 < token.word.length :=
    fun token hpiece => List.length_pos_of_ne_nil hpiece.nonempty
  have hnodup : ∀ {list : List Token}, SplitsFrom separators input 0 list → list.Nodup := by
    intro list hlist
    refine (List.Pairwise.and_mem.mp hlist.ordered).imp ?_
    rintro token _ ⟨hmem, -, hle⟩ rfl
    have := hirrefl token (hlist.pieces token hmem).2
    omega
  have hperm : tokens.Perm others := by
    rw [List.perm_ext_iff_of_nodup (hnodup h) (hnodup hothers)]
    exact fun token => (h.mem_iff token).trans (hothers.mem_iff token).symm
  refine hperm.eq_of_pairwise ?_ h.ordered hothers.ordered
  intro token other htoken _ hle hge
  have := hirrefl token (h.pieces token htoken).2
  omega

theorem SplitsFrom.splits (h : SplitsFrom separators input 0 tokens) : Splits separators input tokens where
  ordered := h.ordered
  stands token htoken := (h.pieces token htoken).2.stands
  nonempty token htoken := (h.pieces token htoken).2.nonempty
  no_space token htoken := (h.pieces token htoken).2.space_not_mem
  separator i byte hbyte hmem hne := (h.mem_iff _).mpr (.separator hbyte hmem hne)
  run token htoken := by
    rcases (h.pieces token htoken).2.kind with ⟨byte, hmem, -, hword⟩ | hrun
    · exact .inl ⟨byte, hmem, hword⟩
    · exact .inr hrun
  exactly_one i byte hbyte hne := by
    obtain ⟨token, htoken, htakes⟩ := h.taken i byte (Nat.zero_le _) hbyte hne
    refine ⟨token, ⟨htoken, htakes⟩, ?_⟩
    rintro other ⟨hother, hotherTakes⟩
    exact (h.pieces other hother).2.eq_of_takes (h.pieces token htoken).2 hotherTakes htakes

theorem Splits.splitsFrom (h : Splits separators input tokens) : SplitsFrom separators input 0 tokens where
  ordered := h.ordered
  pieces token htoken := by
    refine ⟨Nat.zero_le _, h.stands token htoken, h.nonempty token htoken, ?_⟩
    rcases h.run token htoken with ⟨byte, hmem, hword⟩ | hrun
    · refine .inl ⟨byte, hmem, fun heq => h.no_space token htoken ?_, hword⟩
      rw [hword, heq]
      exact List.mem_singleton_self _
    · exact .inr hrun
  taken i byte _ hbyte hne := by
    obtain ⟨token, ⟨htoken, htakes⟩, -⟩ := h.exactly_one i byte hbyte hne
    exact ⟨token, htoken, htakes⟩

end

/-! ## Splitting a line -/

section
variable {separators input before reversed rest : List UInt8} {index : Nat}

/-- An open word between bytes that break words is a maximal run. -/
theorem piece_of_open (hinput : input = before ++ reversed.reverse ++ rest) (hnonempty : reversed ≠ [])
    (hopen : ∀ byte ∈ reversed, ¬ Breaks separators byte)
    (hbefore : ∀ byte, before.getLast? = some byte → Breaks separators byte)
    (hrest : ∀ byte, rest.head? = some byte → Breaks separators byte) :
    Piece separators input ⟨reversed.reverse, before.length⟩ := by
  refine ⟨⟨before, rest, hinput, rfl⟩, by simpa using hnonempty, .inr ⟨by simpa using hopen, ?_, ?_⟩⟩
  · intro i byte hi hbyte
    change i + 1 = before.length at hi
    apply hbefore
    rw [List.getLast?_eq_getElem?, ← hbyte, hinput, List.append_assoc, List.getElem?_append_left (by omega)]
    congr 1
    omega
  · intro byte hbyte
    apply hrest
    rw [← hbyte, hinput, List.getElem?_append_right (by simp)]
    simp [List.head?_eq_getElem?]

/-- Where an open word ends, it comes before the words behind it. -/
theorem splitsFrom_closeWord (hinput : input = before ++ reversed.reverse ++ rest)
    (hindex : index = before.length + reversed.length) (hopen : ∀ byte ∈ reversed, ¬ Breaks separators byte)
    (hbefore : ∀ byte, before.getLast? = some byte → Breaks separators byte)
    (hrest : ∀ byte, rest.head? = some byte → Breaks separators byte) {tokens : List Token}
    (h : SplitsFrom separators input index tokens) :
    SplitsFrom separators input before.length (closeWord index reversed ++ tokens) := by
  unfold closeWord
  split
  · rename_i hempty
    rw [List.isEmpty_iff] at hempty
    simpa [hindex, hempty] using h
  · rename_i hnonempty
    rw [List.isEmpty_iff] at hnonempty
    have hpiece := piece_of_open hinput hnonempty hopen hbefore hrest
    have hbehind : before.length + reversed.reverse.length = index := by simp [hindex]
    rw [show index - reversed.length = before.length by omega]
    exact SplitsFrom.cons (hbehind ▸ h) hpiece

/-- The words of the rest of a line that begins at an index and continues an open word, whose bytes are given from
last to first. Before the open word there is no byte, or one that breaks words. -/
theorem splitsFrom_tokensFrom (hinput : input = before ++ reversed.reverse ++ rest)
    (hindex : index = before.length + reversed.length) (hopen : ∀ byte ∈ reversed, ¬ Breaks separators byte)
    (hbefore : ∀ byte, before.getLast? = some byte → Breaks separators byte) :
    SplitsFrom separators input before.length (tokensFrom separators index reversed rest) := by
  induction rest generalizing before reversed index with
  | nil =>
    have hnil : SplitsFrom separators input index [] := .nil (by simp [hinput, hindex])
    simpa [tokensFrom] using splitsFrom_closeWord hinput hindex hopen hbefore (by simp) hnil
  | cons byte rest ih =>
    have hbyte : input[index]? = some byte := by
      rw [hinput, List.getElem?_append_right (by simp [hindex])]
      simp [hindex]
    -- behind a byte that breaks words, the next word is still empty
    have hnext : Breaks separators byte →
        SplitsFrom separators input (index + 1) (tokensFrom separators (index + 1) [] rest) := by
      intro hbreaks
      have hlength : (before ++ reversed.reverse ++ [byte]).length = index + 1 := by
        simp [hindex]
        omega
      rw [← hlength]
      exact ih (by simp [hinput]) (by simp) (by simp) (by simpa using hbreaks)
    unfold tokensFrom
    split
    · rename_i hspace
      have hbreaks : Breaks separators byte := .inl hspace
      refine splitsFrom_closeWord hinput hindex hopen hbefore (by simpa using hbreaks) ?_
      exact (hnext hbreaks).skip (hspace ▸ hbyte)
    · rename_i hspace
      split
      · rename_i hseparator
        rw [List.contains_iff_mem] at hseparator
        have hbreaks : Breaks separators byte := .inr hseparator
        refine splitsFrom_closeWord hinput hindex hopen hbefore (by simpa using hbreaks) ?_
        exact SplitsFrom.cons (hnext hbreaks) (.separator hbyte hseparator hspace)
      · rename_i hseparator
        rw [List.contains_iff_mem] at hseparator
        refine ih (by simp [hinput]) (by simp [hindex]; omega) ?_ hbefore
        rw [List.forall_mem_cons]
        exact ⟨not_or.mpr ⟨hspace, hseparator⟩, hopen⟩

theorem splitsFrom_line (separators input : List UInt8) :
    SplitsFrom separators input 0 (tokensFrom separators 0 [] input) :=
  @splitsFrom_tokensFrom separators input [] [] input 0 rfl rfl (by simp) (by simp)

end

/-- **A line is split into its words, and in one way only.** Whatever separators the dictionary has, and even if
the blank is one of them or one is there twice, the list that is given has the words of the line, and no other
list has. -/
theorem tokens_splits {image : Image} {dictionary : Dictionary} (h : Dictionary.read image = .ok dictionary)
    (input : List UInt8) :
    ∃ tokens, Dictionary.tokens image input = .ok tokens ∧ Splits dictionary.separators input tokens ∧
      ∀ others, Splits dictionary.separators input others → others = tokens := by
  have hsplits := splitsFrom_line dictionary.separators input
  refine ⟨_, ?_, hsplits.splits, fun others hothers => hothers.splitsFrom.unique hsplits⟩
  unfold Dictionary.tokens
  rw [h]
  rfl

/-- An image with a dictionary at address 0 that has no entries. Its separators are a blank, two commas and a
zero. -/
def separatorSample : Image where
  header := Header.parse #[]
  bytes := #[4, 0x20, 0x2C, 0x2C, 0x00, 6, 0, 0]
  pristine := #[]

theorem tokens_splits_sample :
    let input := Text.ascii " go,,x " ++ [0]
    let words := [⟨Text.ascii "go", 1⟩, ⟨Text.ascii ",", 3⟩, ⟨Text.ascii ",", 4⟩, ⟨Text.ascii "x", 5⟩, ⟨[0], 7⟩]
    Dictionary.tokens separatorSample input = .ok words ∧ Splits [0x20, 0x2C, 0x2C, 0x00] input words := by
  intro input words
  have hread : Dictionary.read separatorSample = .ok ⟨[0x20, 0x2C, 0x2C, 0x00], 6, 0, true, 8⟩ := by
    decide +kernel
  obtain ⟨tokens, htokens, hsplits, -⟩ := tokens_splits hread input
  have hwords : tokens = words := Except.ok.inj (htokens.symm.trans (by decide +kernel))
  exact ⟨hwords ▸ htokens, hwords ▸ hsplits⟩

end Dictionary

end StoryMachine
