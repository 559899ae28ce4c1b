import Ndpi.Lib.CString

/-!
# The compression model for domain names

`shoco_domains_model.h`: the tables that `shoco_compress` and `shoco_decompress` go by.
-/
namespace Ndpi.Source.Shoco
open Lib.CString (chars)

/-- `MIN_CHR`. -/
def minChr : Nat := 45

/-- `chrs_by_chr_id`. -/
def chrsByChrId : List Char := chars "o.ceairnstldmupghbfkyvw-xjzq1203"

/-- `chr_ids_by_chr`. -/
def chrIdsByChr : List Int :=
  List.replicate 45 (-1) ++
  [23, 1, -1, 30, 28, 29, 31] ++
  List.replicate 45 (-1) ++
  [4, 17, 2, 11, 3, 18, 15, 16, 5, 25, 19, 10, 12, 7, 0, 14, 27, 6, 8, 9, 13, 21, 22, 24, 20, 26] ++
  List.replicate 133 (-1)

/-- A row of the next table: the ids behind the last one of a successor are -1. -/
def successorRow (ids : List Int) : List Int := ids ++ List.replicate (32 - ids.length) (-1)

/-- `successor_ids_by_chr_id_and_chr_id`. -/
def successorIdsByChrIdAndChrId : List (List Int) := List.map successorRow [
  [7, 3, 11, -1, -1, -1, 1, 2, 6, 8, 5, 12, 0, 4, 9, 15, -1, 13, -1, -1, -1, 10, 14],
  [2, -1, 0, 6, 8, 3, 10, 1, 15, 11, -1, 5, 13, 4, 12, 7, -1, 9, -1, -1, -1, -1, -1, -1, -1, 14],
  [0, 4, 14, 3, 1, 8, 10, 9, 12, 6, 5, 13, -1, 11, -1, -1, 2, -1, -1, 7, -1, -1, -1, -1, -1, -1,
    15],
  [-1, 1, 8, 10, 7, -1, 0, 4, 3, 2, 6, 5, 9, -1, 13, -1, -1, 12, -1, -1, -1, 15, 11, -1, 14],
  [-1, 4, 6, -1, -1, 10, 1, 0, 5, 3, 2, 8, 7, 12, 9, 11, -1, 13, -1, -1, 14, 15],
  [3, 10, 2, 8, 6, -1, 9, 0, 4, 1, 5, 7, 11, -1, 14, 12, -1, -1, 15, -1, -1, 13],
  [2, 5, 9, 0, 1, 4, -1, 12, 8, 6, -1, 10, 13, 7, -1, 3, -1, -1, -1, 11, 14, 15],
  [9, 2, 8, 0, 5, 7, -1, 13, 6, 1, 10, 4, -1, 14, -1, 3, -1, -1, 12, 11, -1, -1, -1, 15],
  [6, 0, 8, 2, 4, 3, -1, -1, 7, 1, -1, 15, 11, 10, 9, -1, 5, -1, -1, 12, 14, -1, -1, 13],
  [4, 1, 11, 0, 3, 2, 5, -1, 7, 10, 14, -1, 15, 8, -1, -1, 6, -1, -1, -1, 9, 13, 12],
  [3, 4, 11, 1, 2, 0, -1, -1, 8, 7, 5, 10, 13, 6, 12, -1, -1, 15, 14, -1, 9],
  [5, 2, 9, 0, 3, 1, 8, 7, 6, -1, 12, 14, 11, 4, -1, 10, -1, 13, -1, -1, 15],
  [3, 2, 11, 1, 0, 4, -1, -1, 7, 13, -1, 15, 10, 8, 5, 14, -1, 9, -1, -1, 6, -1, -1, -1, 12],
  [-1, 5, 14, 12, 11, 13, 1, 2, 0, 4, 9, 6, 8, -1, 7, 15, -1, 10, -1, 3],
  [1, 5, 12, 3, 0, 6, 2, -1, 8, 9, 4, 14, 13, 11, 7, -1, 10, -1, -1, -1, -1, -1, -1, 15],
  [0, 2, 13, 1, 3, 5, 4, 10, 9, 12, 6, -1, 15, 7, -1, 14, 8, -1, -1, -1, 11],
  [1, 4, 10, 0, 2, 3, 7, 9, 8, 6, 13, -1, 14, 5, 15, -1, -1, -1, -1, 12, 11],
  [4, 5, 9, 1, 0, 3, 2, 15, 8, 12, 6, -1, 14, 7, -1, 13, -1, 11, -1, -1, 10],
  [0, 9, 10, 3, 4, 1, 2, -1, 11, 6, 5, 15, 13, 7, 14, -1, -1, -1, 8, -1, 12],
  [6, 0, 12, 1, 3, 2, 5, 11, 4, 8, 9, -1, 14, 7, 13, -1, -1, -1, -1, -1, 10, -1, -1, 15],
  [3, 0, 4, 5, 2, 14, -1, 9, 1, 6, 10, -1, 7, 13, 8, -1, -1, 11, -1, -1, -1, -1, -1, 15, -1, -1,
    12],
  [4, 2, 6, 0, 3, 1, 8, 5, 7, 11, -1, 14, 12, 10, 9, -1, -1, -1, -1, -1, 15, -1, -1, 13],
  [2, 5, 8, 0, 1, 3, 9, 7, 4, 12, 11, 13, 14, -1, 10, -1, 6, -1, -1, -1, -1, -1, 15],
  [13, -1, 1, 7, 2, 5, 14, 12, 0, 6, 10, 8, 3, -1, 4, 11, -1, 9, 15],
  [10, 0, 6, 7, 5, 1, -1, 12, 8, 3, 15, -1, 13, 11, 2, -1, -1, -1, -1, -1, 4, -1, -1, 14, 9],
  [1, 6, 8, 3, 2, 5, -1, 11, 7, 12, -1, 10, 9, 4, 0, -1, 14, 13, -1, 15],
  [4, 2, 11, 0, 1, 3, -1, 14, 10, 15, 9, 12, 13, 6, -1, -1, 7, -1, -1, -1, 8, -1, -1, -1, -1, -1,
    5],
  [7, 1, 4, 12, 3, 2, 8, -1, 6, 9, 5, 15, 10, 0, 14, -1, -1, 11, -1, -1, -1, -1, -1, -1, -1, -1,
    -1, 13],
  [-1, 0, 14, -1, 11, -1, -1, -1, 12, -1, -1, -1, -1, -1, 15, -1, -1, -1, -1, -1, -1, -1, -1, 13,
    -1, -1, -1, -1, 3, 1, 2, 6],
  [-1, 0, 7, -1, 15, -1, -1, -1, 8, -1, -1, 11, 14, -1, 10, 12, -1, 6, -1, -1, -1, -1, -1, -1,
    -1, -1, -1, -1, 4, 5, 3, 2],
  [-1, 0, 13, -1, 10, -1, -1, -1, 14, -1, -1, -1, 15, -1, -1, -1, -1, 12, -1, -1, -1, -1, -1, -1,
    -1, -1, -1, -1, 2, 3, 1, 7],
  [-1, 0, 5, -1, 14, -1, -1, -1, 13, -1, -1, 2, 15, -1, -1, -1, -1, -1, -1, -1, -1, -1, -1, -1,
    -1, -1, -1, -1, 8, 6, 3, 4]]

/-- A row of `chrs_by_chr_and_successor_id` for a character without successors. -/
def noSuccessors : List Char := List.replicate 16 '\x00'

/-- `chrs_by_chr_and_successor_id`. -/
def chrsByChrAndSuccessorId : List (List Char) :=
  ["scampitedblgnorf", "cnoiudegabrtpmjs"].map chars ++
  [noSuccessors] ++
  [".012754386a9bcsm", ".2018639745as-cp", ".43012bcs5pdg6ma", ".6d03c2418579sam"].map chars ++
  List.replicate 45 noSuccessors ++
  ["nrlt.scmdpigubyv", "aerio.luscybtgmn", "oahe.ltkinrusdcz", "ei.auosnrcgmlbdy",
    "r.tsndlacmewbpxv", "oirealtuf.csympd", "oe.ariluhsnytcgm", "eoai.utrsncyklmp",
    "ntcoslader.mgvpf", "poaeui.scmdntbhk", ".eiasroutlyncpm-", "ieao.lutsydcpmfb",
    "ae.oipysubmcxtgd", "et.gdasicolkfnu-", "mrn.ulsotpvcdbwg", "aorel.ipsthucmd-",
    "u.iaclsortmbeqpd", "eaogi.tuscdknmyv", ".teiahoscpumk-yd", "e.iaorhsuytcwvlm",
    "srnkt.dpmlbaeicg", "ei.aoncsrputm-dy", "eaois.hncrpltdmw", ".iptyacesxounm-l",
    ".saocetmpnlbzui-", "ea.iozuhylscdmnt"].map chars

/-- `Pack`, with the offsets and masks of the characters that it holds. -/
structure Pack where
  word : Nat
  bytesPacked : Nat
  bytesUnpacked : Nat
  offsets : List Nat
  masks : List Nat

/-- `packs`. -/
def packs : List Pack := [
  ⟨0x80000000, 1, 2, [26, 24], [15, 3]⟩,
  ⟨0xc0000000, 2, 4, [25, 22, 19, 16], [15, 7, 7, 7]⟩,
  ⟨0xe0000000, 4, 8, [23, 19, 15, 11, 8, 5, 2, 0], [31, 15, 15, 15, 7, 7, 7, 3]⟩]

/-- `MAX_SUCCESSOR_N`. -/
def maxSuccessorN : Nat := 7

end Ndpi.Source.Shoco
