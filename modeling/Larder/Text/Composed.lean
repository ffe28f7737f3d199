import Larder.Text.Packed

/-!
# Composed text

A letter with its marks can be one character or several. Composed text has as few as there can be:
every composite is taken apart, the marks of a letter are put in the order of their classes, and
then each letter is joined again with the marks that nothing keeps from it. Two texts that a reader
cannot tell apart have the same composed form.

The tables cover the characters that domain names can hold.
-/

namespace Larder.Text

/-- Composites: for each the distance to the one before, and the moves to its first and second
part. -/
def packedComposites : List String := [
  "H0G2BQ010210210210a10424Bq14Cd10210210c18f10210210c2a912510210210210a3cf10210210c18d20e2Bf72",
  "0420C424Cd20220a20a22042f20420220C220Bn24j20820220C022C942220220420C462Cb22Ca32Cb20Cc20Bl64l",
  "20Cc20Bl52f20420a46j20Cc20Bl22l20220Ca20Bl22Bm20Bl42h20220420820220Bq24Cb24032120c20aB3lufc0",
  "uB7t2g02c02c02Ief20520m20n3Bf82U602U104Htg28028Bo2XoC72Keg1BCf055l4e12He22202B402Jds20428320",
  "42832042c320426320426320423Ba2204nBj8d928C02J2C52102Ib62y052xb0KtBV25sBh01801401401B40qB3e1o",
  "01bd1c0180DbGuan5b10g23d4C6e5Bnd1311mcpD4iCbDthfb02044a34K842K502204272082c04Km02Jn02j720820",
  "6285480J9zoBUm1021C201C121C61EqIm02B70hB20SmBFcBOg8g0360EnJ8I410BiLsY0Xu30Bf10BiC8EmI0BmD8Bh",
  "12011BiDsI0HuDoHiHu7e010220B718B6DvHoGi12011BiEeJ6H620a16915BaS8BEoBEuCX0FO0FQe2402402402404",
  "80B9Ci0240340120260VuNO1MAv22Br20Bo20s2IaCv2I5c20Bo20s20j20c2KuCp2022KrCo2062y8Cj2y522252262",
  "0Bo20Bl20Bu20e2242IcCt2I7020C420s22r2OymBt2OylCq20722Cn20c20Bo22Bn20Bo20s2072IeCn20e2Fgf2022",
  "Np020c24020Bo2O-iBt2O-hCq22Cj20Bo2OgBn2c02OQ402O-t020Bo20s20722h20o2052P8Cn24e2P9920C022C520",
  "220e20120Bo22Bn20222122920C220s1B301oCh1641408BfBi20Bj2I2f20120i20b2Oxu12OZr120120i20b2OZs62",
  "PDnBq20Bj20b2Ia320120i20b2Oyu12PEve20Bk2c020Bj2Iaf20120i20b2Ozi12OSn120120i20b20C02Sn020Bj2T",
  "mf20120i20b20C02TdC520C620Bj20b7BTgB01021NUuB712011212011E21209NUnCt1021NVmB7120112120bNVjB4",
  "1021NWiB712011212011E21209NWfCt1021NXeB712011212011E21209NX3Ct1021NY2B7120112120bNXnB41021NY",
  "mB712011212011E21209NYfCt1021NZeB712011212011E21209NwvE32802402402c02c0280BkBfc10350Dsgc0a4D",
  "n1031B274B1E41B2099Dn1031c72jB610218Cs1c0f30N4Oyej140j40vDo0180130BlD205a0360oBg0240rBe03e03",
  "40260nRAl02RC80bB701RB101401RCc01203q01203601207601203e0120360120B3Bm01c0120140BhCt01201B801",
  "207C00120120120DKvGZcWW22402402402402402402402402402402403602402407e010226110226110226110226",
  "1102nD91aFe0es02402402402402402402402402402402403602402407e0102261102261102261102261102nD913",
  "Ei01201201204m0BVGbDKNaWZ3rg0CVmFLuEGx6240fk0E3IoGq120QsBBaBBe10BiBnDmH424r9ee3aeBkD4d20j10B",
  "2HjPeP210j20qHsPuP4120xtBXoBY2R+9BD-iBD-s10m10j1m01l2161120112DC0GEcGEe1701c0"]

/-- Classes of marks by spans. -/
def packedMarkClasses : List String := [
  "Y0H6lH81Gs4H81Go1Gs5Ga2Gs4Ga2Gsb15Gs4H6aGs3H63Gs3H63Gs4H61H81Gs2H61H91Ha2H91Ha2H91H6e0IiH650",
  "I9Gs1H64Gs1H63Gu1Gs1H66Gs6H62Gs1H62Gu1H41H61a1b1c1d1e1f1g1h1i1j2k1l1m101n101o1p101H61Gs101i9",
  "0C0H68u1v1B010Bgr1s1t1u1v1B01B11B21H62Gs2H65Gs1H62Gs10gB310D5H6801H64Gs1H6102H6201Gs1H62Gs10",
  "B3B410uH61Gs1H62Gs1H62Gs3H61Gs2H61Gs1H63Gs1H61Gs1H61Gs1H61Gs1H640EuH67Gs1H6109Gs10oH6401H690",
  "1H6301H670B9Gs50BpH62Gs3H640BaH65Gs5H6fGs1H62Gs1H62Gs1H63Gs3r1s1t1H63Gs1H62Gs2H650Bs710g9103",
  "H61Gs1H620D7710g910BgH630Br720f940Db710g930Dc710g980Do930Dc710g98Ck1Cr20D4710g980D6920g910Ds",
  "950D9D729509Db40DcDm2910dDq40CcGs20rGs101Gs101Go10BnE11E22E46E2402E22H629101H620BuGs10Dg7101",
  "920CiGs10WfH630zk9b0l910Et910aH630G9H410EfGu1H61Gs50GnH61Gs10C7910kH6aGs10BgH65Gs6H62Gs101Gs",
  "2H62Gs2H65Gs1H6iGs3H66Gs1H64Hal0Bk710f910B6H61Gs1H670Bm920Bq710b9a0Br740ElH630111Gs5H62Gs4H6",
  "1011704Gs106H6103H620G6H62Gs1H67Gs1H62Ha1Gm1Gs1Ga1H6B5H81H42Gs1Gq1H61H91Gs1H61Gs20WfH6212H64",
  "13H6204H610312H61Gs1H6112Gs4H6k0C+bH640Ec910D0H6B00RaGq1H41H81Gu1H020D9840zOiH6104H6a0B0H620",
  "CgH620Ik910B5940Ek910rH6i0BpGs30B59c0Ck710c910HfH6101H62Gs102H6205H6201H610Bk9b0Hc930TZeqEk0",
  "TeH67Gs7H6n0zoGsE30D0Gs10ElH6a0BUdGs101H610B8H6111Gs5910F5H61Gs50RpH6c0BpH650JtH620CdGs201Gs",
  "30C6Gs2H63Gs1H61Gs40BhH61Gs1H61Gs10G0910B9910e910Bp91710C5H630Bg930Bt710Cc9109710Da91710Fi71",
  "960Cb720g930mH6q0Ce930Dh9103710nH610D391710Hr91710Du910Dm91710Dj950I991710I29204710Es910Cj91",
  "0i990C9910N5910I27101920Ch910N9920QPc910CO0150BrH670BFp620TFc110FG6Go21303H21GodGs802H65Gs20",
  "uH640EkH630DNrH6I00BgH670LnH6i0BcH640PsH82Gs1H610HuH61Gs10HjH6102H6107H6205H690OiGsCi0B2H667",
  "10"]

/-- Boundaries of the marks. -/
def packedMarks : List String := [
  "Y0DhIi8I6Bd11121219C0bBglg1D58162214B31utCpbBq991o4191317B95Bp9BaBqBm31i1f22t4Bn11g9924o7BnB",
  "0k231b4Bn11ii4kbBn11B134s1Bri7fq5Bn11qa4r3Bo11u64dhBn21g91a4r4C5sc2Bt12b88D2129b8C82r1111142",
  "Bhk125Bh81D4kn443132734dc11a4Vv3zidj3teieBmu93F52B21DmB0Gn7BnBbBgClBfhB69c3udBomB8nEl31l4161",
  "23G6C1WfBkC+b4Ec1D0B0Ra6D94zOi41aB02Cg2Ig13141n544Cg2Biqiid1B68poB14BfeB41C3n3184Bb3Bi113225",
  "211B955cH2814TZeEkTeB5zoE3D01ElaBU1fB88F56RpcBp5Jt2Cd6C6bBh4Dq3BlfB9122a4Bdb7eBg3B4ff2Bc1c3B",
  "ge8412Csc612BvCvhg5Bm21i765uBop11evBlin1ChkHbirB4BghDadD5jHsfHlf1112Edg3s1aB8714891bBegG6D0D",
  "fhCiDeBhl19BqeKr49211BgfnCmFEg16pLFuiCO05Br7BAo11C2CheTFb2ET1CgQl53m27u4Ek3BzrBn4Bi81e1mBD5I",
  "0I0Bg7LniBc4Ps4Hu2Hj1217259OiCiB27"]

/-- A character that stands for two others in a row. -/
structure Composite where
  whole : Nat
  first : Nat
  second : Nat
deriving DecidableEq, Repr

/-- The composites of a packed table, read on from the composite before. -/
def Composite.unpackFrom (before : Composite) : List Nat → List Composite
  | distance :: first :: second :: rest =>
    let composite : Composite :=
      { whole := before.whole + distance
        first := Packed.moved before.first first
        second := Packed.moved before.second second }
    composite :: unpackFrom composite rest
  | _ => []

/-- All composites other than syllables of Hangul. -/
def composites : List Composite :=
  Composite.unpackFrom ⟨0, 0, 0⟩ (Packed.numbers packedComposites)

/-- The spans of the classes of marks. -/
def markClassSpans : List (Nat × Nat) := Packed.spansFrom 0 (Packed.numbers packedMarkClasses)

/-- The boundaries of the marks. -/
def markBoundaries : List Nat := Packed.positions 0 (Packed.numbers packedMarks)

/-- The class of a mark: marks of different classes do not interact. Every other character is of
class zero. -/
def markClass (c : Char) : Nat := Packed.valueAt c.toNat markClassSpans

/-- Whether a character is a mark on the one before. -/
def isMark (c : Char) : Bool := oddBoundariesUpTo c.toNat markBoundaries

/-! ## Taking apart and putting in order -/

/-- The parts of a character, taken apart at most `depth` times. -/
def partsUpTo (depth : Nat) (c : Char) : List Char :=
  match depth with
  | 0 => [c]
  | depth + 1 =>
    match composites.find? (·.whole = c.toNat) with
    | none => [c]
    | some composite =>
      partsUpTo depth (Char.ofNat composite.first) ++ [Char.ofNat composite.second]

/-- The parts of a character; no composite is nested deeper than four. -/
def parts (c : Char) : List Char := partsUpTo 4 c

/-- Puts a character before a text whose marks are in order, so that they stay so. -/
def putMark (c : Char) : List Char → List Char
  | [] => [c]
  | d :: rest =>
    if markClass d ≠ 0 ∧ markClass d < markClass c then d :: putMark c rest else c :: d :: rest

/-- A text with the marks of each letter in the order of their classes. -/
def orderMarks (cs : List Char) : List Char := cs.foldr putMark []

/-! ## Joining -/

/-- The syllable of Hangul that two characters make: a leading consonant and a vowel, or a syllable
without a final consonant and one. -/
def joinHangul? (a b : Char) : Option Char :=
  if 0x1100 ≤ a.toNat ∧ a.toNat < 0x1113 ∧ 0x1161 ≤ b.toNat ∧ b.toNat < 0x1176 then
    some (Char.ofNat (0xac00 + ((a.toNat - 0x1100) * 21 + (b.toNat - 0x1161)) * 28))
  else if 0xac00 ≤ a.toNat ∧ a.toNat < 0xd7a4 ∧ (a.toNat - 0xac00) % 28 = 0
      ∧ 0x11a8 ≤ b.toNat ∧ b.toNat < 0x11c3 then
    some (Char.ofNat (a.toNat + (b.toNat - 0x11a7)))
  else none

/-- The one character that stands for two in a row. -/
def join? (a b : Char) : Option Char :=
  match joinHangul? a b with
  | some c => some c
  | none =>
    (composites.find? fun composite => composite.first = a.toNat ∧ composite.second = b.toNat).map
      fun composite => Char.ofNat composite.whole

/-- Joins a letter with what follows it. `between` holds the marks that did not join it, the last
one first; a mark of the same class or a higher one keeps the next mark from the letter. -/
def joinFrom (letter : Char) (between : List Char) : List Char → List Char
  | [] => letter :: between.reverse
  | c :: rest =>
    let free := match between with
      | [] => true
      | mark :: _ => markClass mark < markClass c
    match if free then join? letter c else none with
    | some joined => joinFrom joined between rest
    | none =>
      if markClass c = 0 then letter :: between.reverse ++ joinFrom c [] rest
      else joinFrom letter (c :: between) rest

/-- The composed form of a text. -/
def compose (cs : List Char) : List Char :=
  let ordered := orderMarks (cs.flatMap parts)
  let loose := ordered.takeWhile (markClass · ≠ 0)
  match ordered.dropWhile (markClass · ≠ 0) with
  | [] => loose
  | letter :: rest => loose ++ joinFrom letter [] rest

end Larder.Text
