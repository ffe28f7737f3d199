import Larder.Text.Packed

/-!
# Direction and joining of characters

Some scripts run from right to left, and in some the shape of a letter depends on its neighbours.
The tables cover the characters that domain names can hold.
-/

namespace Larder.Text

/-- How a character takes part in the direction of a line. -/
inductive Direction where
  /-- A letter of a script from left to right. -/
  | left
  /-- A letter of a script from right to left. -/
  | right
  /-- A letter of one of the Arabic scripts. -/
  | arabic
  /-- A digit of the Arabic scripts. -/
  | arabicDigit
  /-- Any other digit. -/
  | digit
  /-- A sign before a number. -/
  | sign
  /-- A separator within a number. -/
  | separator
  /-- A mark of a unit beside a number. -/
  | terminator
  /-- A character of no direction. -/
  | neutral
  /-- A character that is not shown. -/
  | boundary
  /-- A mark, which goes as the character before it. -/
  | mark
  /-- A character that breaks or steers lines. -/
  | control
deriving DecidableEq, Repr

/-- The directions in the order in which the table counts them. -/
def Direction.all : List Direction :=
  [.left, .right, .arabic, .arabicDigit, .digit, .sign, .separator, .terminator, .neutral, .boundary,
    .mark, .control]

/-- Directions by spans. -/
def packedDirections : List String := [
  "099b59eb5827385516151624a61860q860q849B281748a768B90o810O182078e028s018haDh04820Dv820Eba80Hv",
  "8572aBd11a111a211a211a91Bm82217221612182ab2Bgal3a713223a12D5a881a622a281a4224a2na12uat2Cpab2",
  "f1Bba9128413a11oa411a911a311a71B9a5122Bna92BaaBp0Bna101a104a804a103af02a20ta10Bqa104a606a10k",
  "a40c72077102a50Bpa203ar0ka203a10ba20Bpa104a804a30ia40b7801a80Bqa102a101a606aa0ba40sa10Bta10c",
  "a30B3867186a103a10Bna101a305ai0aa40i8702a10Bqa10fa90da40daf0Bpa204a507a10ka40ra10C8a503a60Cp",
  "a102ab7107a80D2a102a90ba80C8a20ra101a101a1840Bjae01a501a205aBh08a10D6a401a601a202a20pa204a30",
  "ga40da102a206a10fa10Vva30Bg8g0D0810Uq850Dia30ta20uae0iae0Bna708a102ab077101a30g8B00Dla20B2a1",
  "0Dma304a209a106a7860Eo8B20na202a30Boa101a901a102a806ad0BgaCk0Bga101a501a105a10B8a90ca20B0a40",
  "2a201a30Boa101a203a101a30Bqa802a50Ela301ad01a704a106a103a20G6aC10Qb948B0758f618Cr7B18faBk8Ba",
  "7c8k0Bs8E851718J20C58q018Ym018Kj0I08Zg0Fl8703a406870Dva10D0aB08Q5038p09a40281068402840Coa403",
  "810Cq810G48B40G-s8C00VUg8C00Jt830Cva481aa830ta20Cga20e8B30D5810Dpa103a104a10pa20184a408780Bk",
  "8c0C4aa0iai0da10B6a80pab0Bea30Bga102a402a20B7a10C3a602a202ab03a108a10Bfa10Bja101a302a205a201",
  "a10Baa208ab0D98Cm0B5a102a104a30TZeaEk2h0Lr8Ci0Bv8ChaB58Be2Md0I1810Bu8Cd038C00BdaE30D0a14v0Dm",
  "aa0BE01Iv811H1af1B8a81F5a61Ce871O02B4ac3g1B9a51Hi3B01Bba21l2Boa61Bg2mab2v1ia41Dq01a10Bmaf0b8",
  "k0aa102a20aa30Bha402a207ae0Bga30B4a501a90Bta10ca20Bka90aa402a10Cva302a101a206a102aBv0Cva103a",
  "d0ga20Bpa203a10B5aq0Boap01a10eav0Boa802a301a10na10Cka601a104a201a20Hea604a201a20raB40Bja802a",
  "101a20v8B00Bba101a102a601a10D5a302a401a90Hva901a20I0a201a104a10Ega804a10B0a602a20B8a602a408a",
  "901a602a30Bead01a20G6aD00Dgae0Ckan01a701a201aCb0Bhal01a90C0a302a101a10Kra20ba201a10Bgaf0naCm",
  "0B588748u0FC1a106ap0LFuai0CO0a50Bra70BAoa10Bva40Cf8101ac0TFda20ET1aCg0Qna30ha802a70ua40Br8Cp",
  "a38Dr0C08D00BV0aBn04aBi08a10ea10maBD50I0aI00Bga70Lnai0Bca40f7Oh0sa40Hua20Hja102a107a205a90I2",
  "1GgaCi1B2a71Z62Tv8T00t830Bt8Bp0Dq8DN00"]

/-- The spans of the directions. -/
def directionSpans : List (Nat × Nat) := Packed.spansFrom 0 (Packed.numbers packedDirections)

/-- The direction of a character. -/
def direction (c : Char) : Direction :=
  Direction.all.getD (Packed.valueAt c.toNat directionSpans) .control

/-- How a letter joins its neighbours in a line. -/
inductive Joining where
  /-- Not at all. -/
  | none
  /-- The one behind it only. -/
  | next
  /-- The one before it only. -/
  | previous
  /-- Both. -/
  | both
  /-- Its neighbours join as if it were not there. -/
  | transparent
deriving DecidableEq, Repr

/-- The ways of joining in the order in which the table counts them. -/
def Joining.all : List Joining := [.none, .next, .previous, .both, .transparent]

/-- Ways of joining by spans. -/
def packedJoining : List String := [
  "Y04Dh0Ii480I64Bd01410142014201490C04b053101243121312135243d013721324l0e324123053f2i3B6213229",
  "312131213222012148014602420144220a3302310g21413325342139213121312132214t213b233f223421312233",
  "22360B64b0p3B14909410o440149014301470g21352231213a21312345023101340121312q033102352138493a23",
  "0121322236213f014Bp0Bn41014104480441034f02420t410Bq41044606410k440o450Bp42034r0k4203410b420B",
  "p41044804430i440k480Bq4102410146064a0b440s410Bt410c430Bg4103410Bn410143054i0a440r410Bq410241",
  "064105490d440q420Bp42044507410k440r410C84503460Cp41024b08480D24102490b480C8420r41014101410Bn",
  "4e01450142054Bh08410D6440146014202420p4204430g440d41024206410f410Vv430zi430t420u4e0i4e0Bn470",
  "841024b09430B7310o3D005423B241360Dg430442094106470Gn4202430Bo41014901410248064d0Bg4Ck0Bg4101",
  "45014105410B8490c420B044024201430Bo410142034101430Bq4802450El43014d01470441064103420G64C10Wf",
  "4Bk0C+b440Ec410D04B00Ra440Db440zOi44014a0B0420Cg420Ig41034104410p4205440g3Bi110Ch4a0i4i0d410",
  "B6480p4b0Be430Bg41024402420B7410C3460242024b034108410Bf410Bj4101430242054201410Ba42084b0H441",
  "024104430TZe4Ek0Te4B50zo4E30D0410El4a0BU14f0B8480E035210121012202112534113521332102214634210",
  "Eg3121312333213221312231280g24320Kh113B121314c0Bp450Jt420l2132013a0Ba460Bg33213h014b33210r34",
  "223c440Ba31013223013122322132013122310421311l0B1410Bm4f0B94102420a430Bh440242074e0Bg430B4450",
  "1490Bt410c420Bk490a4402410Cv43024101420641024Bv0Cv41034d0g420Bp4203410B54q0Br470c41014101410",
  "e4v0Bo48024301410n410Ck460141044201420He46044201420r4B40Bj48024101420Da410141024601410D54101",
  "41024401490Hv4901420I042014104410Eg4804410B04a0B84602440849014602430Be4d01420G641014301410G9",
  "4e01410Ci4n01470142014Cb0Bh4l01490C043024101410Kr420b420Bk48024101410n4Cm0FEg41064p0LFu4c034",
  "30CO0450Br470BAo410Bv440Ch4c0TFd420ET14Cg0Qn430h4802470u440Ek430Bzr4Bn044Bi08410e410m4BD50I0",
  "4I00Bg470Ln4i0Bc440Ps440Hu420Hj410241074205490Oi4Ci3B24c0"]

/-- The spans of the ways of joining. -/
def joiningSpans : List (Nat × Nat) := Packed.spansFrom 0 (Packed.numbers packedJoining)

/-- How a character joins its neighbours. -/
def joining (c : Char) : Joining := Joining.all.getD (Packed.valueAt c.toNat joiningSpans) .none

end Larder.Text
