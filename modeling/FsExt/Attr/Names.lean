import FsExt.Attr.Histories
import FsExt.Attr.Listing
import FsExt.Attr.Snapshot
import FsExt.Attr.Unpack

set_option autoImplicit false

namespace FsExt.Attr

open Sys

namespace Windows

-- What a query answers of the streams of that moment. Where `fails` it may also
-- fail for reasons of its own.
def listCalls (fails : Prop) : Program.Semantics ListOp ListAnswer (List StreamInformation) :=
  fun op streams answer streams' =>
    streams' = streams ∧ ((fails ∧ answer = .error .other) ∨ answer = (streamQueries streams op ()).1)

def Anyhow (_ _ : List StreamInformation) : Prop := True

def Unlistable (streams : List StreamInformation) : Prop := 2 ^ 31 < (layout streams).length

structure Failed (fails : Prop) (table : NameTable) (asked : List (List StreamInformation)) (outcome : Option Listing) :
    Prop where
  shown : outcome = some ⟨.error UvError.EIO, table, []⟩
  cause : fails ∨ ∃ streams ∈ asked, Unlistable streams

def Shown (asked : List (List StreamInformation)) (outcome : Option Listing) : Prop :=
  ∃ streams, asked.getLast? = some streams ∧
    (Decodable streams → ∃ listing texts, outcome = some listing ∧ Exact streams listing texts)

section
variable (fails : Prop) (table : NameTable)

theorem query_shown (doublings infoSize : Nat) (start : List StreamInformation)
    (asked seen : List (List StreamInformation)) (outcome : Option Listing) (final : List StreamInformation)
    (runs : Program.Runs (listCalls fails) Anyhow start (queryStreams table (doublings + 1) infoSize) asked seen outcome
      final) :
    (outcome = some ⟨.error UvError.EIO, table, []⟩ ∧ asked.length = 1 ∧
        (fails ∨ infoSize % 2 ^ 32 < informationSize)) ∨
      (∃ streams, asked = [streams] ∧ Shown asked outcome) ∨
      ∃ met next asked' seen', asked = met :: asked' ∧ informationSize ≤ infoSize % 2 ^ 32 ∧
        infoSize % 2 ^ 32 < (layout met).length ∧
        Program.Runs (listCalls fails) Anyhow next (queryStreams table doublings (infoSize * 2)) asked' seen' outcome
          final := by
  obtain ⟨met, answer, met', asked', seen', rfl, _, _, ⟨_, answered⟩, rest⟩ := Program.runs_call _ _ _ _ _ _ _ _ _ runs
  cases answer with
  | error err =>
      cases err with
      | other =>
          obtain ⟨rfl, rfl⟩ := Program.runs_ret _ _ _ _ _ _ _ _ rest
          refine .inl ⟨rfl, rfl, answered.imp And.left fun same => ?_⟩
          by_contra enough
          rw [streamQueries, if_neg enough] at same
          split at same
          · cases same
          · cases same
      | bufferOverflow =>
          obtain ⟨least, long⟩ : informationSize ≤ infoSize % 2 ^ 32 ∧ infoSize % 2 ^ 32 < (layout met).length := by
            rcases answered with ⟨_, refused⟩ | same
            · cases refused
            · rw [streamQueries] at same
              split at same
              · cases same
              · split at same
                · cases same
                · omega
          exact .inr (.inr ⟨met, met', asked', seen', rfl, least, long, rest⟩)
  | ok content =>
      have laid : content = layout met := by
        rcases answered with ⟨_, refused⟩ | same
        · cases refused
        · rw [streamQueries] at same
          split at same
          · cases same
          · split at same
            · exact Except.ok.inj same
            · cases same
      subst laid
      obtain ⟨rfl, rfl⟩ := Program.runs_ret _ _ _ _ _ _ _ _ rest
      refine .inr (.inl ⟨met, rfl, met, rfl, fun decodable => ?_⟩)
      rw [store_zeros]
      exact decodable_listed met decodable _

theorem failed_later (met : List StreamInformation) (asked : List (List StreamInformation)) (outcome : Option Listing)
    (failed : Failed fails table asked outcome) : Failed fails table (met :: asked) outcome := by
  refine ⟨failed.shown, failed.cause.imp_right fun long => ?_⟩
  obtain ⟨streams, member, long⟩ := long
  exact ⟨streams, .tail _ member, long⟩

theorem shown_later (met : List StreamInformation) (asked : List (List StreamInformation)) (outcome : Option Listing)
    (shown : Shown asked outcome) : Shown (met :: asked) outcome := by
  obtain ⟨streams, last, exact_⟩ := shown
  refine ⟨streams, ?_, exact_⟩
  rw [List.getLast?_cons, last]
  rfl

-- The size after 2 ^ 31 is zero as a ULONG, which the system refuses.
theorem queries_shown (k doublings infoSize : Nat) (reach : infoSize * 2 ^ k = 2 ^ 31) (enough : k + 1 < doublings)
    (least : informationSize ≤ infoSize) (start : List StreamInformation)
    (asked seen : List (List StreamInformation)) (outcome : Option Listing) (final : List StreamInformation)
    (runs : Program.Runs (listCalls fails) Anyhow start (queryStreams table doublings infoSize) asked seen outcome final) :
    asked.length ≤ k + 2 ∧ (Failed fails table asked outcome ∨ Shown asked outcome) := by
  induction k generalizing doublings infoSize start asked seen with
  | zero =>
      obtain ⟨doublings, rfl⟩ : ∃ less, doublings = less + 2 := ⟨doublings - 2, by omega⟩
      rw [Nat.pow_zero, Nat.mul_one] at reach
      subst reach
      rcases query_shown fails table (doublings + 1) (2 ^ 31) start asked seen outcome final runs with
        ⟨refused, one, cause⟩ | ⟨streams, rfl, shown⟩ | ⟨met, next, asked', seen', rfl, _, long, rest⟩
      · exact ⟨by omega, .inl ⟨refused, .inl (cause.resolve_right (by decide))⟩⟩
      · exact ⟨by simp, .inr shown⟩
      · rcases query_shown fails table doublings (2 ^ 31 * 2) next asked' seen' outcome final rest with
          ⟨refused, one, _⟩ | ⟨streams, rfl, shown⟩ | ⟨_, _, _, _, _, tiny, _⟩
        · exact ⟨by rw [List.length_cons]; omega, .inl ⟨refused, .inr ⟨met, .head _, long⟩⟩⟩
        · exact ⟨by simp, .inr (shown_later met _ outcome shown)⟩
        · exact absurd tiny (by decide)
  | succ k ih =>
      obtain ⟨doublings, rfl⟩ : ∃ less, doublings = less + 1 := ⟨doublings - 1, by omega⟩
      have below : infoSize * 2 * 2 ^ k = 2 ^ 31 := by rw [← reach, Nat.pow_succ', Nat.mul_assoc]
      have word : infoSize < 2 ^ 32 := by
        have := Nat.le_mul_of_pos_right (infoSize * 2) (Nat.two_pow_pos k)
        omega
      rcases query_shown fails table doublings infoSize start asked seen outcome final runs with
        ⟨refused, one, cause⟩ | ⟨streams, rfl, shown⟩ | ⟨met, next, asked', seen', rfl, _, _, rest⟩
      · rw [Nat.mod_eq_of_lt word] at cause
        exact ⟨by omega, .inl ⟨refused, .inl (cause.resolve_right (by omega))⟩⟩
      · exact ⟨by simp, .inr shown⟩
      · obtain ⟨few, ends⟩ := ih doublings (infoSize * 2) below (by omega) (by omega) next asked' seen' rest
        refine ⟨by rw [List.length_cons]; omega, ?_⟩
        exact ends.imp (failed_later fails table met asked' outcome) (shown_later met asked' outcome)

theorem stream_list_snapshot (start : List StreamInformation) (asked seen : List (List StreamInformation))
    (outcome : Option Listing) (final : List StreamInformation)
    (runs : Program.Runs (listCalls fails) Anyhow start (listAttrs table) asked seen outcome final) :
    asked.length ≤ 27 ∧ (Failed fails table asked outcome ∨ Shown asked outcome) :=
  queries_shown fails table 25 58 64 (by decide) (by decide) (by decide) start asked seen outcome final runs

end

def mainStream : StreamInformation := .sample [] (by decide)

def twoStreams : List StreamInformation := [mainStream, .sample (utf16 "ab".toList) (by decide)]

theorem stream_list_shrunk :
    [twoStreams, [mainStream]].length ≤ 27 ∧
      (Failed False noNames [twoStreams, [mainStream]]
          (listStreams (store (List.replicate 128 0) 0 (layout [mainStream]))) ∨
        Shown [twoStreams, [mainStream]] (listStreams (store (List.replicate 128 0) 0 (layout [mainStream])))) := by
  refine stream_list_snapshot False noNames twoStreams _ [twoStreams, twoStreams, [mainStream], [mainStream]] _
    [mainStream] ?_
  refine .call _ _ _ _ (.error .bufferOverflow) _ _ _ _ ⟨rfl, .inr rfl⟩
    (.other _ [mainStream] _ _ _ _ _ trivial ?_)
  exact .call _ _ _ _ (.ok (layout [mainStream])) _ _ _ _ ⟨rfl, .inr rfl⟩ (.ret _ _)

end Windows

theorem names_lookup (file : AttrFile) (name : CString) : name ∈ file.names ↔ file.lookup name ≠ none := by
  simp [AttrFile.names, AttrFile.lookup]

theorem names_listed (platform : Platform) (errno : Option UvError) (names : List AttrName)
    (small : (terminated (names.map AttrName.name)).length < 2 ^ 31) :
    ∃ table, ((listAttrs noNames).run (lister platform errno (names.map AttrName.name)) ()).1 = some (.ok (), table) ∧
      table.listed = some (names.map AttrName.name) := by
  have size := narrow_small _ small
  have kept : ((terminated (names.map AttrName.name)).length % 2 ^ 64 : Int).toNat =
      (terminated (names.map AttrName.name)).length := by omega
  have listed : lister platform errno (names.map AttrName.name)
      (.flistxattr (malloc (terminated (names.map AttrName.name)).length).isNone
        (terminated (names.map AttrName.name)).length) () =
      (⟨(terminated (names.map AttrName.name)).length, errno, terminated (names.map AttrName.name)⟩, ()) := by
    rw [lister, transfer_small platform _ _ _ (by omega) rfl, if_neg (show ¬ _ < _ by omega)]
    by_cases empty : platform = .linux ∧ ((terminated (names.map AttrName.name)).length : Int) = 0
    · rw [if_pos empty, List.length_eq_zero_iff.mp (show (terminated (names.map AttrName.name)).length = 0 by omega)]
    · rw [if_neg empty]
  obtain ⟨table, built, shown⟩ := build_table_whole names
  refine ⟨table, ?_, shown⟩
  rw [list_attrs_calls, Program.run_call, first_listed, afterListSize, if_neg (by rw [size]; omega), Program.run_call, size,
    kept, listed, Program.run_ret]
  rw [after_list_positive _ _ (by omega) (by omega) (by rw [size]; omega), Int.toNat_natCast, Nat.sub_self,
    show blank 0 = [] from rfl, List.append_nil, built]
  rfl

structure MirrorsNames (naming : Windows.StreamNaming) (store : CString → Option (List UInt8))
    (streams : Windows.Stream → Option (List UInt8)) : Prop where
  same : Mirrors naming store streams
  names : ∀ name, store name ≠ none → ∃ word, Windows.Portable naming name word
  words : ∀ word, streams (.named word) ≠ none → ∃ name, Windows.Portable naming name word

theorem serves_agree_names (naming : Windows.StreamNaming) (asked : Request)
    (store store' : CString → Option (List UInt8)) (streams streams' : Windows.Stream → Option (List UInt8))
    (response response' : Response) (portable : ∃ word, Windows.Portable naming asked.name word)
    (mirrors : MirrorsNames naming store streams)
    (serves : Serves (xattrTerms fun _ => False) asked store response store')
    (serves' : Serves (Windows.streamTerms naming False) asked streams response' streams') :
    response' = response ∧ MirrorsNames naming store' streams' := by
  obtain ⟨word, portable⟩ := portable
  obtain ⟨answers, same⟩ :=
    serves_agree naming asked store store' streams streams' response response' ⟨word, portable⟩ mirrors.same serves serves'
  obtain ⟨_, left⟩ := serves_smooth _ (fun _ trouble => trouble) asked asked.name rfl store store' response serves
  obtain ⟨_, right⟩ := serves_smooth _ (fun err (trouble : False ∧ err = UvError.EIO) => trouble.1) asked (.named word)
    (Windows.portable_key naming asked.name word portable) streams streams' response' serves'
  refine ⟨answers, same, fun other held => ?_, fun other held => ?_⟩
  · by_cases here : other = asked.name
    · exact here ▸ ⟨word, portable⟩
    · rw [left, Function.update_of_ne here] at held
      exact mirrors.names other held
  · by_cases here : other = word
    · exact here ▸ ⟨asked.name, portable⟩
    · rw [right, Function.update_of_ne (by simpa using here)] at held
      exact mirrors.words other held

namespace Windows

structure StreamsOf (file : NtFile) (streams : List StreamInformation) : Prop where
  distinct : (streams.map StreamInformation.name).Nodup
  main : [] ∈ streams.map StreamInformation.name
  listed : ∀ word, word ≠ [] → (word ∈ streams.map StreamInformation.name ↔ file.content (.named word) ≠ none)

end Windows

section
variable (naming : Windows.StreamNaming) (file : AttrFile) (file' : Windows.NtFile) (streams : List Windows.StreamInformation)

theorem stream_named (mirrors : MirrorsNames naming file.lookup file'.content)
    (has : Windows.StreamsOf file' streams) (word : List UInt16) (some_ : word ≠ [])
    (member : word ∈ streams.map Windows.StreamInformation.name) :
    ∃ name, Windows.Portable naming name word ∧ name ∈ file.names := by
  have held := (has.listed word some_).mp member
  obtain ⟨name, portable⟩ := mirrors.words word held
  rw [mirrors.same name word portable] at held
  exact ⟨name, portable, (names_lookup file name).mpr held⟩

theorem streams_decodable (mirrors : MirrorsNames naming file.lookup file'.content)
    (has : Windows.StreamsOf file' streams) (ended : ∀ stream ∈ streams, stream.padding.head? = some 0)
    (short : (terminated file.names).length < 2 ^ 31) (room : (Windows.layout streams).length ≤ 2 ^ 31) :
    Windows.Decodable streams := by
  refine ⟨?_, ended, fun stream member => ?_, room⟩
  · rintro rfl
    exact absurd has.main List.not_mem_nil
  · by_cases unnamed : stream.name = []
    · exact ⟨[], unnamed.symm, by decide⟩
    · obtain ⟨name, portable, there⟩ := stream_named naming file file' streams mirrors has stream.name unnamed
        (List.mem_map_of_mem member)
      obtain ⟨text, rfl, same⟩ := Windows.portable_text naming name stream.name portable
      have within := name_shorter file.names (utf8 text) there
      exact ⟨text, same, by omega⟩

theorem names_agree (mirrors : MirrorsNames naming file.lookup file'.content)
    (has : Windows.StreamsOf file' streams) (texts : List (List Char))
    (listed : texts.map utf16 = Windows.named streams) :
    (texts.map utf8).Perm file.names := by
  have distinct : (texts.map utf8).Nodup := by
    have words : (texts.map utf16).Nodup := listed ▸ has.distinct.filter _
    exact (List.Nodup.of_map utf16 words).map fun text text' same => utf8_injective text text' same
  refine (List.perm_ext_iff_of_nodup distinct file.distinct).mpr fun name => ⟨fun member => ?_, fun member => ?_⟩
  · obtain ⟨text, there, rfl⟩ := List.mem_map.mp member
    have word : utf16 text ∈ Windows.named streams := listed ▸ List.mem_map_of_mem there
    obtain ⟨some_, stream, inside, same⟩ := (Windows.named_mem streams (utf16 text)).mp word
    obtain ⟨name, portable, found⟩ := stream_named naming file file' streams mirrors has (utf16 text) some_
      (same ▸ List.mem_map_of_mem inside)
    obtain ⟨text', rfl, same'⟩ := Windows.portable_text naming name (utf16 text) portable
    rw [← Windows.utf16_injective text' text same']
    exact found
  · have held := (names_lookup file name).mp member
    obtain ⟨word, portable⟩ := mirrors.names name held
    rw [← mirrors.same name word portable] at held
    obtain ⟨stream, inside, same⟩ := List.mem_map.mp ((has.listed word portable.some_).mpr held)
    have there : word ∈ texts.map utf16 := listed ▸ (Windows.named_mem streams word).mpr ⟨portable.some_, stream, inside, same⟩
    obtain ⟨text, listed_, rfl⟩ := List.mem_map.mp there
    obtain ⟨text', rfl, same'⟩ := Windows.portable_text naming name (utf16 text) portable
    rw [Windows.utf16_injective text' text same']
    exact List.mem_map_of_mem listed_

end

theorem attr_listings_portable (kept : CString → Prop) (platform : Platform) (naming : Windows.StreamNaming)
    (start final : AttrFile) (start' final' : Windows.NtFile) (calls calls' : List (Request × Response))
    (sound : Sound (fun _ => False) start) (small : Windows.Small False start')
    (mirrors : MirrorsNames naming start.lookup start'.content) (same : calls'.map Prod.fst = calls.map Prod.fst)
    (portable : ∀ call ∈ calls, ∃ word, Windows.Portable naming call.1.name word)
    (history : XattrHistory kept platform (fun _ => False) start calls final)
    (history' : Windows.AttrHistory naming False start' calls' final') (streams : List Windows.StreamInformation)
    (has : Windows.StreamsOf final' streams) (ended : ∀ stream ∈ streams, stream.padding.head? = some 0)
    (short : (terminated final.names).length < 2 ^ 31) (room : (Windows.layout streams).length ≤ 2 ^ 31)
    (errno : Option UvError) :
    ∃ table listing names names',
      ((listAttrs noNames).run (lister platform errno final.names) ()).1 = some (.ok (), table) ∧
        ((Windows.listAttrs noNames).run (Windows.streamQueries streams) ()).1 = some listing ∧
        listing.status = .ok () ∧ table.listed = some names ∧ listing.table.listed = some names' ∧ names'.Perm names ∧
        ∀ name, name ∈ names ↔ final.lookup name ≠ none := by
  have sequential := (commits_answered (attr_commits kept platform fun _ => False) start final calls sound history).2
  have sequential' := (Windows.history_sequential naming False start' final' calls' small history').2
  obtain ⟨_, mirrors'⟩ := sequential_agree _ _ (MirrorsNames naming)
    (fun asked => ∃ word, Windows.Portable naming asked.name word)
    (fun asked store response store' streams response' streams' portable mirrors serves serves' =>
      serves_agree_names naming asked store store' streams streams' response response' portable mirrors serves serves')
    _ _ _ _ calls calls' mirrors same portable sequential sequential'
  have names := listing_names final
  obtain ⟨table, ran, listed⟩ := names_listed platform errno final.listing.attrs (by rw [← names] at short; exact short)
  have decodable := streams_decodable naming final final' streams mirrors' has ended short room
  obtain ⟨listing, texts, ran', exact_⟩ := Windows.lists_decodable noNames streams decodable
  refine ⟨table, listing, final.names, texts.map utf8, names ▸ ran, ran', exact_.status, listed.trans (congrArg some names),
    exact_.listed, ?_, names_lookup final⟩
  exact names_agree naming final final' streams mirrors' has texts exact_.names

def pairName : AttrName := ⟨[0x61, 0x62], by decide⟩

theorem pair_portable : Windows.Portable Windows.documentedNaming pairName.name (utf16 "ab".toList) := by
  refine ⟨by decide, ?_, rfl⟩
  have spelled : pairName.name = utf8 "ab".toList := by decide
  rw [spelled, Windows.streamName, Windows.multiByteToWideChar, decode_utf8]
  decide

theorem pair_streams : Windows.StreamsOf (Windows.setFile (utf16 "ab".toList)) Windows.twoStreams where
  distinct := by decide
  main := by decide
  listed word some_ := by
    rw [Windows.set_file_content]
    simp [Windows.twoStreams, Windows.mainStream, Windows.StreamInformation.sample, some_]

theorem bare_mirrors (naming : Windows.StreamNaming) (name : AttrName) :
    MirrorsNames naming (single name none).lookup Windows.bareFile.content where
  same _ _ _ := rfl
  names _ held := absurd rfl held
  words _ held := absurd rfl held

theorem pair_listings_portable :
    ∃ table listing names names',
      ((listAttrs noNames).run (lister .linux none (single pairName (some [1, 2])).names) ()).1 = some (.ok (), table) ∧
        ((Windows.listAttrs noNames).run (Windows.streamQueries Windows.twoStreams) ()).1 = some listing ∧
        listing.status = .ok () ∧ table.listed = some names ∧ listing.table.listed = some names' ∧ names'.Perm names ∧
        ∀ name, name ∈ names ↔ (single pairName (some [1, 2])).lookup name ≠ none :=
  attr_listings_portable (fun name => name = pairName.name) .linux Windows.documentedNaming _ _ _ _ _ _ (absent_sound _)
    Windows.bare_small (bare_mirrors _ pairName) rfl
    (fun call member => ⟨_, by
      rw [set_then_got_named pairName call member]
      exact pair_portable⟩)
    (single_history _ pairName rfl) (Windows.portable_history _ pairName _ pair_portable) Windows.twoStreams pair_streams
    (by decide) (by decide) (by decide) none

end FsExt.Attr
