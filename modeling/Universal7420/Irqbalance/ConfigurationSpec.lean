import Universal7420.Irqbalance.Configuration
import Mathlib.Data.List.Induction

/-
  Which configuration files are read.

  Between two items the parser is in front of the next line
  that is not blank, or at the end of the file.  So a file of
  the grammar is read exactly when its first line is not
  blank, only its last line is an empty comment, and its
  blacklists fit.

  Main declarations:
    * `Universal7420.Irqbalance.configStep_item`
    * `Universal7420.Irqbalance.configLoop_eq_ok_iff`
    * `Universal7420.Irqbalance.configuration_read_iff`
-/

------------------------------------------------------------
-- Between Items
------------------------------------------------------------

namespace Universal7420

namespace Irqbalance

open CText Scanf

/- The rest of the file after an item. -/
def lineEnd : List ConfigItem → List Char
| [] => []
| items => '\n' :: configText items

/- A stream after white space has been read. -/
def settled (rest : List Char) : Stream :=
  ⟨rest, rest.isEmpty⟩

theorem configText_cons
    (item : ConfigItem)
    (items : List ConfigItem) :
    configText (item :: items) =
      item.text ++ lineEnd items := by
  cases items with
  | nil =>
      simp [configText, lineEnd, List.intercalate]
  | cons next items =>
      simp [configText, lineEnd, List.intercalate]

theorem lineEnd_head
    (items : List ConfigItem) :
    ∀ c ∈ (lineEnd items).head?, c = '\n' := by
  intro c hc
  cases items with
  | nil =>
      simp [lineEnd] at hc
  | cons item items =>
      simpa [lineEnd] using hc.symm

theorem noDigitFirst_lineEnd
    (items : List ConfigItem) :
    NoDigitFirst (lineEnd items) := by
  intro c hc
  rw [lineEnd_head items c hc]
  decide

/- An item that is not blank starts with ink. -/
theorem ConfigItem.dropWhile_isSpace
    {item : ConfigItem}
    (hInk : item.isBlank = false)
    (rest : List Char) :
    (item.text ++ rest).dropWhile isSpace =
      item.text ++ rest := by
  cases item with
  | blank line =>
      cases hInk
  | comment line =>
      rfl
  | cpun n =>
      rfl
  | cpuo n =>
      rfl
  | tdel n =>
      rfl
  | blck list =>
      rfl

/- The only items without ink are blank lines. -/
theorem ConfigItem.eq_blank
    {item : ConfigItem}
    (hBlank : item.isBlank = true) :
    ∃ line, item = .blank line := by
  cases item with
  | blank line =>
      exact ⟨line, rfl⟩
  | _ =>
      cases hBlank

/- White space ends before the next item with ink. -/
theorem dropWhile_lineEnd
    (items : List ConfigItem) :
    (lineEnd items).dropWhile isSpace =
      configText (items.dropWhile ConfigItem.isBlank) := by
  induction items with
  | nil =>
      rfl
  | cons item items ih =>
      have hNewline :
          (lineEnd (item :: items)).dropWhile isSpace =
            (item.text ++ lineEnd items).dropWhile
              isSpace := by
        rw [lineEnd, configText_cons]
        · exact List.dropWhile_cons_of_pos (by decide)
        · simp
      rw [hNewline]
      by_cases hBlank : item.isBlank = true
      · rw [List.dropWhile_cons_of_pos hBlank, ← ih]
        rcases ConfigItem.eq_blank hBlank with ⟨line, hLine⟩
        rw [hLine]
        exact List.dropWhile_append_of_pos line.blank
      · rw [List.dropWhile_cons_of_neg hBlank,
          configText_cons]
        exact ConfigItem.dropWhile_isSpace
          (by simpa using hBlank) _

/- Reading up to a place and then white space. -/
theorem skipSpace_advance
    (tail : List Char)
    (s : Stream)
    (hOpen : s.eof = false) :
    (s.advance tail).skipSpace =
      settled (tail.dropWhile isSpace) := by
  cases tail with
  | nil =>
      simp [Stream.skipSpace, Stream.advance, settled]
  | cons c cs =>
      simp [Stream.skipSpace, Stream.advance, settled, hOpen]

/- A number and the white space after it. -/
theorem fscanf_intFormat
    (n : IntNumeral)
    {text tail : List Char}
    (hText :
      text.dropWhile isSpace = n.numeral.text ++ tail)
    (hTail : NoDigitFirst tail) :
    fscanf intFormat ⟨text, false⟩ =
      ⟨1, [.int n.numeral.value],
        settled (tail.dropWhile isSpace)⟩ := by
  have hScan :=
    scan_int_numeral (s := ⟨text, false⟩) n.range hText hTail
  simp only [fscanf, intFormat, scanFrom, hScan,
    scan_space, skipSpace_advance tail ⟨text, false⟩ rfl]
  rfl

theorem fscanf_ullFormat
    (n : UllNumeral)
    {text tail : List Char}
    (hText :
      text.dropWhile isSpace = n.numeral.text ++ tail)
    (hTail : NoDigitFirst tail) :
    fscanf ullFormat ⟨text, false⟩ =
      ⟨1, [.ull n.stored],
        settled (tail.dropWhile isSpace)⟩ := by
  have hScan :=
    scan_ull_numeral (s := ⟨text, false⟩) n.value hText hTail
  simp only [fscanf, ullFormat, scanFrom, hScan,
    scan_space, skipSpace_advance tail ⟨text, false⟩ rfl]
  rfl

/- A comment with a text is skipped with the lines after it. -/
theorem fscanf_comment
    {line : CommentLine}
    (hBody : line.body ≠ [])
    (items : List ConfigItem) :
    (fscanf lineFormat
        ⟨line.body ++ lineEnd items, false⟩).stream =
      settled
        (configText (items.dropWhile ConfigItem.isBlank)) := by
  have hSkip :=
    scan_skipLine hBody line.oneLine (lineEnd_head items)
      false
  have hSpace :=
    skipSpace_advance (lineEnd items)
      ⟨line.body ++ lineEnd items, false⟩ rfl
  simp only [fscanf, lineFormat, scanFrom, hSkip,
    scan_space, hSpace, dropWhile_lineEnd]

end Irqbalance

end Universal7420

------------------------------------------------------------
-- Blacklists
------------------------------------------------------------

namespace Universal7420

namespace Irqbalance

open CText Scanf

/- The rest of the file in front of some entries. -/
def blacklistRest :
    List IntNumeral → List ConfigItem → List Char
| [], items =>
    configText (items.dropWhile ConfigItem.isBlank)
| entry :: entries, items =>
    entry.numeral.text ++
      (entriesText entries ++ lineEnd items)

theorem noDigitFirst_entriesText
    (entries : List IntNumeral)
    (items : List ConfigItem) :
    NoDigitFirst (entriesText entries ++ lineEnd items) := by
  cases entries with
  | nil =>
      exact noDigitFirst_lineEnd items
  | cons entry entries =>
      intro c hc
      have hEq : c = '\n' := by
        simpa [entriesText] using hc.symm
      rw [hEq]
      decide

/- White space ends before the next entry. -/
theorem dropWhile_entriesText
    (entries : List IntNumeral)
    (items : List ConfigItem) :
    (entriesText entries ++ lineEnd items).dropWhile
        isSpace =
      blacklistRest entries items := by
  cases entries with
  | nil =>
      exact dropWhile_lineEnd items
  | cons entry entries =>
      have hText :
          entriesText (entry :: entries) ++ lineEnd items =
            '\n' :: blacklistRest (entry :: entries)
              items := by
        simp [entriesText, blacklistRest]
      rw [hText,
        List.dropWhile_cons_of_pos
          (show isSpace '\n' = true by decide)]
      exact entry.numeral.dropWhile_isSpace _

/- One entry is read. -/
theorem fscanf_entry
    (entry : IntNumeral)
    (entries : List IntNumeral)
    (items : List ConfigItem) :
    fscanf intFormat
        (settled
          (blacklistRest (entry :: entries) items)) =
      ⟨1, [.int entry.numeral.value],
        settled (blacklistRest entries items)⟩ := by
  have hOpen :
      settled (blacklistRest (entry :: entries) items) =
        ⟨blacklistRest (entry :: entries) items, false⟩ := by
    simp [settled, blacklistRest, Numeral.text,
      entry.numeral.nonempty]
  rw [hOpen, blacklistRest, fscanf_intFormat entry
    (entry.numeral.dropWhile_isSpace _)
    (noDigitFirst_entriesText entries items),
    dropWhile_entriesText]

/- An array of the right size takes all entries. -/
theorem readBlacklist_fits
    (entries : List IntNumeral)
    (items : List ConfigItem)
    {i : Nat}
    {blacklist : List Int}
    (hSize : blacklist.length = i + entries.length) :
    readBlacklist entries.length i blacklist
        (settled (blacklistRest entries items)) =
      .ok (true,
        blacklist.take i ++
          entries.map (fun entry => entry.numeral.value),
        settled
          (configText
            (items.dropWhile ConfigItem.isBlank))) := by
  induction entries generalizing i blacklist with
  | nil =>
      have hAll : blacklist.take i = blacklist := by
        apply List.take_of_length_le
        simp at hSize
        omega
      simp [readBlacklist, hAll, blacklistRest]
  | cons entry entries ih =>
      have hIndex : i < blacklist.length := by
        rw [hSize, List.length_cons]
        omega
      have hSet :
          (blacklist.set i entry.numeral.value).length =
            i + 1 + entries.length := by
        rw [List.length_set, hSize, List.length_cons]
        omega
      have hTake :
          (blacklist.set i entry.numeral.value).take
              (i + 1) =
            blacklist.take i ++ [entry.numeral.value] := by
        rw [List.take_add_one, List.take_set_of_le (by omega)]
        simp [hIndex]
      simp only [List.length_cons, readBlacklist,
        fscanf_entry, ne_eq, not_true_eq_false, if_false,
        if_pos hIndex, storedInt]
      rw [ih hSet, hTake]
      simp

/- A shorter array is overrun. -/
theorem readBlacklist_overflow
    (entries : List IntNumeral)
    (items : List ConfigItem)
    {i : Nat}
    {blacklist : List Int}
    (hStart : i ≤ blacklist.length)
    (hSize : blacklist.length < i + entries.length) :
    readBlacklist entries.length i blacklist
        (settled (blacklistRest entries items)) =
      .error .heapOverflow := by
  induction entries generalizing i blacklist with
  | nil =>
      simp at hSize
      omega
  | cons entry entries ih =>
      simp only [List.length_cons, readBlacklist,
        fscanf_entry, ne_eq, not_true_eq_false, if_false,
        storedInt]
      by_cases hIndex : i < blacklist.length
      · rw [if_pos hIndex]
        apply ih
        · rw [List.length_set]
          omega
        · rw [List.length_set]
          rw [List.length_cons] at hSize
          omega
      · rw [if_neg hIndex]

/- The size of a small blacklist is not converted. -/
theorem irqBlacklistSz_of_lt
    {n : Nat}
    (hSmall : n < 2 ^ 29) :
    irqBlacklistSz n = n * 4 := by
  apply Int.bmod_eq_of_le
  · omega
  · omega

/- The size of a large one is negative or too small. -/
theorem irqBlacklistSz_of_le
    {n : Nat}
    (hLarge : 2 ^ 29 ≤ n)
    (hRange : (n : Int) < 2 ^ 31) :
    irqBlacklistSz n < 0 ∨
      0 ≤ irqBlacklistSz n ∧
        (irqBlacklistSz n / 4).toNat < n := by
  have hUpper : irqBlacklistSz n < 2 ^ 31 := by
    have hBound :=
      Int.bmod_lt (x := (n : Int) * 4) (m := 2 ^ 32)
        (by decide)
    unfold irqBlacklistSz
    omega
  by_cases hSign : irqBlacklistSz n < 0
  · exact Or.inl hSign
  · refine Or.inr ⟨by omega, ?_⟩
    omega

end Irqbalance

end Universal7420

------------------------------------------------------------
-- One Item
------------------------------------------------------------

namespace Universal7420

namespace Irqbalance

open CText Scanf

/- The globals after an item. -/
def applyItem
    (config : Config) : ConfigItem → Config
| .blank _ | .comment _ => config
| .cpun n => { config with nrCpus := n.numeral.value }
| .cpuo n => { config with offsCpus := n.numeral.value }
| .tdel n => { config with threadDelay := n.stored }
| .blck list =>
    { config with
      irqBlacklist :=
        list.entries.map (fun entry => entry.numeral.value)
      irqBlacklistNum := list.entries.length }

section Parser

variable {malloc : Nat → Bool}

/- A character that starts neither comment nor command. -/
theorem configStep_of_other
    (config : Config)
    {c : Char}
    (hOther : c ∉ ['#', 'c', 't', 'b'])
    (rest : List Char) :
    configStep malloc config ⟨c :: rest, false⟩ =
      .ret (-22) config := by
  simp only [List.mem_cons, List.not_mem_nil, or_false,
    not_or] at hOther
  rcases hOther with ⟨hHash, hC, hT, hB⟩
  simp only [configStep, fgetc, if_neg hHash]
  split
  · simp [runCommand, hC, hT, hB]
  · simp [hC, hT, hB]

/- The number after a command. -/
theorem dropWhile_space_numeral
    (n : Numeral)
    (tail : List Char) :
    (' ' :: (n.text ++ tail)).dropWhile isSpace =
      n.text ++ tail := by
  rw [List.dropWhile_cons_of_pos (by decide)]
  exact n.dropWhile_isSpace tail

/- The text after `blck`. -/
def blckText
    (list : BlacklistLines)
    (items : List ConfigItem) : List Char :=
  ' ' :: (list.count.numeral.text ++
    (entriesText list.entries ++ lineEnd items))

/- The command stores the number of entries. -/
theorem readBlck_eq
    (config : Config)
    (list : BlacklistLines)
    (items : List ConfigItem) :
    readBlck malloc config ⟨blckText list items, false⟩ =
      fillBlacklist malloc
        { config with
          irqBlacklistNum := list.entries.length }
        (settled (blacklistRest list.entries items)) := by
  have hCount :
      fscanf intFormat ⟨blckText list items, false⟩ =
        ⟨1, [.int list.count.numeral.value],
          settled (blacklistRest list.entries items)⟩ := by
    rw [← dropWhile_entriesText]
    exact fscanf_intFormat list.count
      (dropWhile_space_numeral list.count.numeral _)
      (noDigitFirst_entriesText list.entries items)
  simp only [readBlck, hCount, storedInt, list.complete]

/- A blacklist that fits is read. -/
theorem readBlck_fits
    (hSmall : ∀ size < 2 ^ 31, malloc size = true)
    (config : Config)
    (list : BlacklistLines)
    (hFits : list.entries.length < 2 ^ 29)
    (items : List ConfigItem) :
    readBlck malloc config ⟨blckText list items, false⟩ =
      .next (applyItem config (.blck list))
        (settled
          (configText
            (items.dropWhile ConfigItem.isBlank))) := by
  have hSize :
      (irqBlacklistSz list.entries.length % 2 ^ 64).toNat <
        2 ^ 31 := by
    rw [irqBlacklistSz_of_lt hFits]
    omega
  have hCells :
      (irqBlacklistSz list.entries.length / 4).toNat =
        list.entries.length := by
    rw [irqBlacklistSz_of_lt hFits]
    omega
  have hArray :
      (List.replicate list.entries.length (0 : Int)).length =
        0 + list.entries.length := by
    simp
  rw [readBlck_eq, fillBlacklist]
  simp only [hSmall _ hSize, if_true, hCells,
    Int.toNat_natCast,
    readBlacklist_fits list.entries items hArray]
  rfl

/- A blacklist that does not fit is not read. -/
theorem readBlck_not_fits
    (hHuge : ∀ size, 2 ^ 63 ≤ size → malloc size = false)
    (config : Config)
    (list : BlacklistLines)
    (hFits : ¬ list.entries.length < 2 ^ 29)
    (items : List ConfigItem) :
    (∃ config',
      readBlck malloc config ⟨blckText list items, false⟩ =
        .ret (-12) config') ∨
      readBlck malloc config ⟨blckText list items, false⟩ =
        .fault .heapOverflow := by
  have hRange :
      (list.entries.length : Int) < 2 ^ 31 := by
    rw [← list.complete]
    exact list.count.range.2
  have hLower :
      -(2 ^ 31) ≤ irqBlacklistSz list.entries.length := by
    have hBound :=
      Int.le_bmod (x := (list.entries.length : Int) * 4)
        (m := 2 ^ 32) (by decide)
    unfold irqBlacklistSz
    omega
  rw [readBlck_eq, fillBlacklist]
  by_cases hMalloc :
      malloc (irqBlacklistSz list.entries.length %
        2 ^ 64).toNat = true
  · right
    rcases irqBlacklistSz_of_le (Nat.le_of_not_lt hFits)
        hRange with hNegative | ⟨_, hShort⟩
    · rw [hHuge _ (by omega)] at hMalloc
      cases hMalloc
    · have hArray :
          (List.replicate
            (irqBlacklistSz list.entries.length / 4).toNat
              (0 : Int)).length <
            0 + list.entries.length := by
        simpa using hShort
      simp only [hMalloc, if_true, Int.toNat_natCast,
        readBlacklist_overflow list.entries items
          (Nat.zero_le _) hArray]
  · left
    exact ⟨_, if_neg hMalloc⟩

/- The parser handles an item and the white space after it. -/
theorem configStep_item
    (hSmall : ∀ size < 2 ^ 31, malloc size = true)
    (config : Config)
    {item : ConfigItem}
    {items : List ConfigItem}
    (hInk : item.isBlank = false)
    (hComment : item.isEmptyComment = true → items = [])
    (hFits : item.Fits) :
    configStep malloc config
        ⟨configText (item :: items), false⟩ =
      .next (applyItem config item)
        (settled
          (configText
            (items.dropWhile ConfigItem.isBlank))) := by
  rw [configText_cons]
  cases item with
  | blank line =>
      cases hInk
  | comment line =>
      change ConfigTurn.next config
        (fscanf lineFormat
          ⟨line.body ++ lineEnd items, false⟩).stream = _
      by_cases hBody : line.body = []
      · have hLast : items = [] := by
          apply hComment
          simp [ConfigItem.isEmptyComment, hBody]
        rw [hBody, hLast]
        rfl
      · rw [fscanf_comment hBody]
        rfl
  | cpun n =>
      have hScan :=
        fscanf_intFormat n
          (dropWhile_space_numeral n.numeral _)
          (noDigitFirst_lineEnd items)
      rw [dropWhile_lineEnd] at hScan
      change runCommand malloc config ['c', 'p', 'u', 'n']
        ⟨' ' :: (n.numeral.text ++ lineEnd items), false⟩ = _
      simp only [runCommand, if_true, hScan]
      rfl
  | cpuo n =>
      have hScan :=
        fscanf_intFormat n
          (dropWhile_space_numeral n.numeral _)
          (noDigitFirst_lineEnd items)
      rw [dropWhile_lineEnd] at hScan
      change runCommand malloc config ['c', 'p', 'u', 'o']
        ⟨' ' :: (n.numeral.text ++ lineEnd items), false⟩ = _
      rw [runCommand, if_neg (by decide), if_pos rfl, hScan]
      rfl
  | tdel n =>
      have hScan :=
        fscanf_ullFormat n
          (dropWhile_space_numeral n.numeral _)
          (noDigitFirst_lineEnd items)
      rw [dropWhile_lineEnd] at hScan
      change runCommand malloc config ['t', 'd', 'e', 'l']
        ⟨' ' :: (n.numeral.text ++ lineEnd items), false⟩ = _
      rw [runCommand, if_neg (by decide),
        if_neg (by decide), if_pos rfl, hScan]
      rfl
  | blck list =>
      have hText :
          ConfigItem.text (.blck list) ++ lineEnd items =
            ['b', 'l', 'c', 'k'] ++ blckText list items := by
        simp [ConfigItem.text, blckText]
      rw [hText]
      exact readBlck_fits hSmall config list hFits items

/-
  An empty comment before another line stops the parser: its
  newline is taken for the start of a command.
-/
theorem configLoop_emptyComment
    (config : Config)
    {item next : ConfigItem}
    (hComment : item.isEmptyComment = true)
    (items : List ConfigItem)
    (fuel : Nat) :
    configLoop malloc (fuel + 2) config
        ⟨configText (item :: next :: items), false⟩ =
      some (.ok (-22, config)) := by
  have hText :
      configText (item :: next :: items) =
        '#' :: '\n' :: configText (next :: items) := by
    rw [configText_cons]
    cases item with
    | comment line =>
        have hBody : line.body = [] := by
          simpa [ConfigItem.isEmptyComment] using hComment
        simp [ConfigItem.text, hBody, lineEnd]
    | _ =>
        cases hComment
  have hTurn :
      configStep malloc config
          ⟨'#' :: '\n' :: configText (next :: items),
            false⟩ =
        .next config
          ⟨'\n' :: configText (next :: items), false⟩ :=
    rfl
  rw [hText, configLoop]
  simp only [Bool.false_eq_true, if_false, hTurn]
  rw [configLoop]
  simp only [Bool.false_eq_true, if_false,
    configStep_of_other config
      (show '\n' ∉ ['#', 'c', 't', 'b'] by decide)]

/- A blacklist that does not fit stops the parser. -/
theorem configLoop_not_fits
    (hHuge : ∀ size, 2 ^ 63 ≤ size → malloc size = false)
    (config : Config)
    {item : ConfigItem}
    (hFits : ¬ item.Fits)
    (items : List ConfigItem)
    (fuel : Nat)
    (final : Config) :
    configLoop malloc (fuel + 1) config
        ⟨configText (item :: items), false⟩ ≠
      some (.ok (0, final)) := by
  cases item with
  | blck list =>
      have hText :
          configText (.blck list :: items) =
            ['b', 'l', 'c', 'k'] ++ blckText list items := by
        rw [configText_cons]
        simp [ConfigItem.text, blckText]
      have hTurn :
          configStep malloc config
              ⟨configText (.blck list :: items), false⟩ =
            readBlck malloc config
              ⟨blckText list items, false⟩ := by
        rw [hText]
        rfl
      rw [configLoop]
      simp only [Bool.false_eq_true, if_false, hTurn]
      rcases readBlck_not_fits hHuge config list hFits items
        with ⟨config', hRet⟩ | hFault
      · rw [hRet]
        simp
      · rw [hFault]
        simp
  | _ =>
      exact absurd trivial hFits

end Parser

end Irqbalance

end Universal7420

------------------------------------------------------------
-- Whole Files
------------------------------------------------------------

namespace Universal7420

namespace Irqbalance

open CText Scanf

theorem readable_dropWhile
    (items : List ConfigItem) :
    Readable (items.dropWhile ConfigItem.isBlank) ↔
      Readable items := by
  induction items with
  | nil =>
      rfl
  | cons item items ih =>
      by_cases hBlank : item.isBlank = true
      · rw [List.dropWhile_cons_of_pos hBlank, ih]
        rcases ConfigItem.eq_blank hBlank with ⟨line, hLine⟩
        rw [hLine]
        simp [Readable, ConfigItem.isEmptyComment,
          ConfigItem.Fits]
      · rw [List.dropWhile_cons_of_neg hBlank]

theorem foldl_dropWhile
    (items : List ConfigItem)
    (config : Config) :
    (items.dropWhile ConfigItem.isBlank).foldl applyItem
        config =
      items.foldl applyItem config := by
  induction items with
  | nil =>
      rfl
  | cons item items ih =>
      by_cases hBlank : item.isBlank = true
      · rw [List.dropWhile_cons_of_pos hBlank, ih]
        rcases ConfigItem.eq_blank hBlank with ⟨line, hLine⟩
        rw [hLine]
        rfl
      · rw [List.dropWhile_cons_of_neg hBlank]

theorem ConfigItem.text_ne_nil
    {item : ConfigItem}
    (hInk : item.isBlank = false) :
    item.text ≠ [] := by
  cases item with
  | blank line =>
      cases hInk
  | comment line =>
      simp [text]
  | cpun n =>
      simp [text]
  | cpuo n =>
      simp [text]
  | tdel n =>
      simp [text]
  | blck list =>
      simp [text]

/- In front of an item with ink the stream is not at its end. -/
theorem settled_configText
    {item : ConfigItem}
    (hInk : item.isBlank = false)
    (items : List ConfigItem) :
    settled (configText (item :: items)) =
      ⟨configText (item :: items), false⟩ := by
  rw [settled, configText_cons]
  simp [ConfigItem.text_ne_nil hInk]

/- A file gets shorter with each item. -/
theorem length_configText_lt
    {item : ConfigItem}
    (hInk : item.isBlank = false)
    (items : List ConfigItem) :
    (configText
        (items.dropWhile ConfigItem.isBlank)).length <
      (configText (item :: items)).length := by
  have hText := List.length_pos_iff.mpr
    (ConfigItem.text_ne_nil hInk)
  have hRest :
      ((lineEnd items).dropWhile isSpace).length ≤
        (lineEnd items).length :=
    (List.dropWhile_sublist _).length_le
  rw [← dropWhile_lineEnd, configText_cons,
    List.length_append]
  omega

/- What is left after blank lines starts with ink. -/
theorem head_dropWhile_isBlank
    (items : List ConfigItem) :
    ∀ first ∈ (items.dropWhile ConfigItem.isBlank).head?,
      first.isBlank = false := by
  induction items with
  | nil =>
      simp
  | cons item items ih =>
      by_cases hBlank : item.isBlank = true
      · rw [List.dropWhile_cons_of_pos hBlank]
        exact ih
      · rw [List.dropWhile_cons_of_neg hBlank]
        intro first hFirst
        have hEq : item = first := by
          simpa using hFirst
        rw [← hEq]
        simpa using hBlank

section Parser

variable {malloc : Nat → Bool}

/- One turn of the loop for an item that can be read. -/
theorem configLoop_item
    (hSmall : ∀ size < 2 ^ 31, malloc size = true)
    (config : Config)
    {item : ConfigItem}
    {items : List ConfigItem}
    (hInk : item.isBlank = false)
    (hComment : item.isEmptyComment = true → items = [])
    (hFits : item.Fits)
    (fuel : Nat) :
    configLoop malloc (fuel + 1) config
        ⟨configText (item :: items), false⟩ =
      configLoop malloc fuel (applyItem config item)
        (settled
          (configText
            (items.dropWhile ConfigItem.isBlank))) := by
  have hTurn :=
    configStep_item hSmall config hInk hComment hFits
  rw [configLoop]
  simp only [Bool.false_eq_true, if_false, hTurn]

/-
  In front of an item with ink, or at the end, the loop reads
  the rest of the file exactly when it is readable.
-/
theorem configLoop_eq_ok_iff
    (hSmall : ∀ size < 2 ^ 31, malloc size = true)
    (hHuge : ∀ size, 2 ^ 63 ≤ size → malloc size = false)
    {items : List ConfigItem}
    (hInk : ∀ first ∈ items.head?, first.isBlank = false)
    {fuel : Nat}
    (hFuel : (configText items).length < fuel)
    (config final : Config) :
    configLoop malloc fuel config
        (settled (configText items)) =
      some (.ok (0, final)) ↔
      Readable items ∧
        final = items.foldl applyItem config := by
  generalize hLength : items.length = n
  induction n using Nat.strongRecOn
    generalizing items fuel config with
  | ind n ih =>
      cases items with
      | nil =>
          rcases Nat.exists_eq_add_one_of_ne_zero
              (Nat.ne_zero_of_lt hFuel) with ⟨fuel', hEq⟩
          rw [hEq, configLoop]
          simp [settled, configText, List.intercalate,
            Readable, eq_comm]
      | cons item rest =>
          have hItem : item.isBlank = false :=
            hInk item (by simp)
          have hShorter := length_configText_lt hItem rest
          rcases Nat.exists_eq_add_one_of_ne_zero
              (Nat.ne_zero_of_lt hFuel) with ⟨fuel', hEq⟩
          rw [settled_configText hItem, hEq]
          by_cases hComment :
              item.isEmptyComment = true → rest = []
          · by_cases hFits : item.Fits
            · have hRest :
                  (rest.dropWhile
                    ConfigItem.isBlank).length < n := by
                have hDrop :=
                  (List.dropWhile_sublist (l := rest)
                    ConfigItem.isBlank).length_le
                rw [← hLength, List.length_cons]
                omega
              have hLoop :=
                ih _ hRest (head_dropWhile_isBlank rest)
                  (show _ < fuel' by omega)
                  (applyItem config item) rfl
              have hReadable :
                  Readable (item :: rest) ↔
                    Readable rest := by
                constructor
                · intro hAll
                  exact hAll.2.2
                · intro hAll
                  exact ⟨hComment, hFits, hAll⟩
              rw [configLoop_item hSmall config hItem
                  hComment hFits,
                hLoop, readable_dropWhile, foldl_dropWhile,
                hReadable, List.foldl_cons]
            · have hStop :=
                configLoop_not_fits hHuge config hFits rest
                  fuel' final
              simp [hStop, Readable, hFits]
          · rcases Classical.not_imp.mp hComment with
              ⟨hEmpty, hMore⟩
            rcases rest with _ | ⟨next, rest⟩
            · exact absurd rfl hMore
            · have hLong :
                  2 ≤ (configText
                    (item :: next :: rest)).length := by
                have hText := List.length_pos_iff.mpr
                  (ConfigItem.text_ne_nil hItem)
                rw [configText_cons, List.length_append]
                simp only [lineEnd, List.length_cons]
                omega
              rcases Nat.exists_eq_add_of_le
                  (show 1 ≤ fuel' by omega) with
                ⟨fuel'', hMoreFuel⟩
              rw [hMoreFuel,
                show 1 + fuel'' + 1 = fuel'' + 2 by omega,
                configLoop_emptyComment config hEmpty]
              simp [Readable, hEmpty]

end Parser

/- A file with a blank first line starts with white space. -/
theorem isSpace_of_blank
    {item : ConfigItem}
    {items : List ConfigItem}
    (hBlank : item.isBlank = true)
    {c : Char}
    {cs : List Char}
    (hText : configText (item :: items) = c :: cs) :
    isSpace c = true := by
  rcases ConfigItem.eq_blank hBlank with ⟨line, hLine⟩
  rw [hLine, configText_cons] at hText
  simp only [ConfigItem.text] at hText
  rcases hSpaces : line.spaces with _ | ⟨d, ds⟩
  · rw [hSpaces, List.nil_append] at hText
    have hNewline : c = '\n' :=
      lineEnd_head items c (by simp [hText])
    rw [hNewline]
    decide
  · rw [hSpaces, List.cons_append] at hText
    have hEq : d = c := (List.cons.inj hText).1
    rw [← hEq]
    exact line.blank d (by simp [hSpaces])

/- The last item decides, if it gives a value. -/
theorem lastValue_append
    {α : Type}
    (value? : ConfigItem → Option α)
    (default : α)
    (items : List ConfigItem)
    (item : ConfigItem) :
    lastValue value? default (items ++ [item]) =
      (value? item).getD
        (lastValue value? default items) := by
  unfold lastValue
  cases hItem : value? item with
  | none =>
      simp [hItem]
  | some v =>
      simp [hItem]

/- Applying the items one by one leaves the last values. -/
theorem foldl_applyItem
    (items : List ConfigItem) :
    items.foldl applyItem Config.initial =
      lastValues items := by
  induction items using List.reverseRecOn with
  | nil =>
      rfl
  | append_singleton items item ih =>
      rw [List.foldl_append, ih, List.foldl_cons,
        List.foldl_nil]
      simp only [lastValues, lastValue_append]
      cases item with
      | blank line =>
          rfl
      | comment line =>
          rfl
      | cpun n =>
          rfl
      | cpuo n =>
          rfl
      | tdel n =>
          rfl
      | blck list =>
          simp [applyItem, ConfigItem.nrCpus?,
            ConfigItem.offsCpus?, ConfigItem.threadDelay?,
            ConfigItem.irqBlacklist?]

/-
  A file of the grammar is read with its last values, if and
  only if its first line is there and not blank, only its last
  line is an empty comment, and its blacklists fit.
-/
theorem configuration_read_iff
    {malloc : Nat → Bool}
    (hSmall : ∀ size < 2 ^ 31, malloc size = true)
    (hHuge : ∀ size, 2 ^ 63 ≤ size → malloc size = false)
    (items : List ConfigItem) :
    readIrqbalanceConfiguration malloc
        (some (configText items)) =
      some (.ok (0, lastValues items)) ↔
      (∃ first ∈ items.head?, first.isBlank = false) ∧
        Readable items := by
  unfold readIrqbalanceConfiguration
  dsimp only
  cases items with
  | nil =>
      simp [configText, List.intercalate, configLoop,
        configStep, fgetc, fopen]
  | cons item rest =>
      by_cases hInk : item.isBlank = false
      · have hOpen :
            fopen (configText (item :: rest)) =
              settled (configText (item :: rest)) := by
          rw [settled_configText hInk, fopen]
        have hHead :
            ∀ first ∈ (item :: rest).head?,
              first.isBlank = false := by
          simpa using hInk
        rw [hOpen,
          configLoop_eq_ok_iff hSmall hHuge hHead
            (Nat.lt_succ_self _), foldl_applyItem]
        simp [hInk]
      · have hStop :
            configLoop malloc
                ((configText (item :: rest)).length + 1)
                Config.initial
                (fopen (configText (item :: rest))) =
              some (.ok (-22, Config.initial)) := by
          rw [configLoop]
          simp only [fopen, Bool.false_eq_true, if_false]
          cases hText : configText (item :: rest) with
          | nil =>
              rfl
          | cons c cs =>
              have hOther : c ∉ ['#', 'c', 't', 'b'] := by
                have hSpace :=
                  isSpace_of_blank (by simpa using hInk) hText
                intro hMem
                simp only [List.mem_cons, List.not_mem_nil,
                  or_false] at hMem
                rcases hMem with rfl | rfl | rfl | rfl
                all_goals cases hSpace
              simp only [configStep_of_other _ hOther]
        rw [hStop]
        simp [hInk]

/- Memory for every size below two gigabytes. -/
def smallMalloc (size : Nat) : Bool :=
  decide (size < 2 ^ 31)

def eight : IntNumeral :=
  ⟨Numeral.ofNat 8, by decide⟩

/- A comment, a blank line, a command and a blacklist. -/
def plainItems : List ConfigItem :=
  [.comment ⟨[' ', 'x'], by decide⟩,
    .blank ⟨[], by simp, by simp⟩,
    .cpun eight,
    .blck ⟨⟨Numeral.ofNat 1, by decide⟩, [eight],
      by decide⟩]

theorem configuration_read_plainItems :
    (∀ size < 2 ^ 31, smallMalloc size = true) ∧
      (∀ size, 2 ^ 63 ≤ size → smallMalloc size = false) ∧
      readIrqbalanceConfiguration smallMalloc
          (some (configText plainItems)) =
        some (.ok (0, lastValues plainItems)) := by
  have hSmall : ∀ size < 2 ^ 31, smallMalloc size = true := by
    intro size hSize
    exact decide_eq_true hSize
  have hHuge :
      ∀ size, 2 ^ 63 ≤ size → smallMalloc size = false := by
    intro size hSize
    exact decide_eq_false (by omega)
  refine ⟨hSmall, hHuge, ?_⟩
  apply (configuration_read_iff hSmall hHuge plainItems).mpr
  refine ⟨⟨_, rfl, rfl⟩, ?_⟩
  simp [plainItems, Readable, ConfigItem.isEmptyComment,
    ConfigItem.Fits]

/-
  A comment without a text.  The shipped file has none, since
  its lines end in a carriage return.
-/
def emptyCommentFirst : List ConfigItem :=
  [.comment ⟨[], by decide⟩, .cpun eight,
    .blank ⟨[], by simp, by simp⟩]

theorem configuration_rejects_emptyComment :
    String.ofList (configText emptyCommentFirst) =
        "#\ncpun 8\n" ∧
      readIrqbalanceConfiguration smallMalloc
          (some (configText emptyCommentFirst)) =
        some (.ok (-22, Config.initial)) ∧
      (lastValues emptyCommentFirst).nrCpus = 8 := by
  decide

end Irqbalance

end Universal7420
