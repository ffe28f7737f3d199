import Larder.Text.Packed

/-!
# Characters of domain names

A character in a domain name is kept, dropped, replaced by others, or refused. Capitals are replaced
by small letters, and variants of a character by the plain one.
-/

namespace Larder.Endpoint

/-- Boundaries of the characters that are kept. -/
def packedKept : List String := [
  "F1711121112423131n17B11111111111111111111111111111111111111111111111111131121111113111111121",
  "111111111111111111111111111111111111111111112111111121112132412133212111112112112131112317a1",
  "11111111111112111111111111111112413111111111111111111111111111111111111111111111111111111111",
  "17212211411111111D19v625Cr21391B01111111133i1rB38111111111111111111111111131211122BjBg111111",
  "11111111111111111111111111191111111111111111111111111111111111111111111111111111112111111111",
  "11121111111111111111111111111111111111111111111111111111111111111111111111111111111111111111",
  "11111111B9Be13231Bn8r46hm1Co4D41Bg2Br2D5eBr2Bh2f1s211b5B07Cb1Dl8B418222m17113429222481842p23",
  "16422m171121222115422331a19ha319131m1712152a131321f42c771318222m17121529222373752ia216331432",
  "111232333c4533142161el5d131n1g291314721312242a7m131n1a152913147253142a13cd131Bj13164g2q131i3",
  "o191127314611186a23cBi174tB5211151o111c1a2511171a42B0c1Bm14141414141c134211571h14141414141c1",
  "31f1dB5F0BgBc1D22H8142711142B9142B1142711142f1Bp142C32B03q6CmaU01s3Cp7m9o9kcd1312cBk2B82a6a6",
  "b5a6Cp7Bb5C6av1c4c413Ba25bBc4q6b3Bu2C11t2b6a6e2Be2ckCd1F68Bs3f3Bja1Bl88Bb5Bc31b1i1sd1B2B5C01",
  "11111111111111111111111111111111111111111111111111111111111111111111111111111111111111111111",
  "11111111111111111111111111111111111111111111111111111111522111111111111111111111111111111111",
  "1111111111111111111111111111111111111111111111111111111111111111986a88886a88881111111111111B",
  "j241f193328314e1l221151c3183212411183d17C181peB1j131b122523111111141b16456Bg315124Es212Ho2Hv",
  "mbF0BJ11D73D51En2EaBgBg113211111141121651111111111111111111111111111111111111111111111111111",
  "111111111111111111111111111111111111111111111181114115Bd11512Bo81eo97171717171717171DuB2q141",
  "CjIe11Bj11351Cm22221Cv6BbD02eC6agC88Bf1M0yEd3Bn9Ksl11111111111111111111111111111111111111111",
  "111j11111111111111111111111111112Cq8B2111111111111131111111111111111111111111111111111111111",
  "11111111111111111111111811112111111114111211131111111111111111111151511111111111111141112111",
  "111111111111q22Bj3a6Bo8C68c6Dkbu3Ce1b4B11Bn9e2a2D7osa6262697171Bc4912CkBe2a6Kz4cn4BhIQi21112",
  "a1111223Hk1EjB1LbiC02Bm8Bd3B0gl2Bc1Mcc1q1j121f2eB2Dr534Bd3Co1d31BfBeE2t3Bhfs4B49u5Bb5u1B54eC",
  "iDm2aBeB44B88Bkb1B7b1f17123BkcJn9ma8o1Dv6211Bc12312n1C889Bgj125B13r5rB6Bo4k2Bi1258131t234a79",
  "7C0B0B74c9Bm3t2r5q74c7CgC9DnBj7Be8a6gpt82Ggv1Ba1322g689B1Be8BamqB6skn9Ce4B49Bu15dp7a6Bl1i8B7",
  "9D01kbi1BfBu711141f1b6Br5a6418222m1712151a22232161572735ba11211B61a1121141a1282tCs15uC88aF6B",
  "m2B6B2C5ba6djBq6a6ksr2f4nFpBsE4Bjc82128121u122c9aC682Be2brC88CjdC97aCm8CoB2ea691Bd1eat3B02m1",
  "eC97121Bc3112198a66121B512167a6Bc4aHmp7h1B93tCl1fBidyrD6Df15bG4CScD3dBBggmaDyr5S7GVpBqBW6Rp7",
  "v1a4Ch1a6u26aC6aa171l5jNgBqH6BrB0pBcCb4Bp7hC05b79HGmB9B0D1DjIPt417121J3f1t321e48McCI4Db5d397",
  "a24Dx0GmB433Nk6nfhfBe2n9DkBsHmaB72Bl7e8C06BalC6DqkckcCn9pBE7Ucf51fBCgv66Gl71h271215D41DgBd3e",
  "2a42K0vhBq51OgBaGmBb41G0v1m82H0714121f1G52gCbBa4a42YhC4CcBtNi2IeBc4D4cf2f1f1B5l5v1B0q3B31tBo",
  "qD06Eq-p3h3d3Gq6c41fc4Bo8a6B88u2c42e9B7Ko8e2d3b3Bp114g2c4a7Ej1Csa1BA5BJX0B0EIu2FUe2HJhfTeEN2",
  "Ewb5IJa"]

/-- Boundaries of the characters that are dropped. -/
def packedDropped : List String := [
  "Fd1V11DQf2BSj2Cl5B+r1Ck556EHk1BTErgHf1F01BPHv4FGf8YLy5Hg"]

/-- Runs of characters that are replaced by one: for each the distance to the end of the run before,
its form, and the move from the last replacement. -/
def packedRuns : List String := [
  "F00C0a0E284Ct20BYi40BYl10Ds6CoH22o4B2Ct665c3964d83Cp620Hf19Hm20Ql20-015Mv20Mu10Mn24Ms10Ml30F",
  "210Ho10410Mh20Ms10620c10110Mt40Nc10620619N720Nm10Nf20Nm30Nb20Nm10Nf24Nk15Nd20No10Nh408htB23B",
  "1660c20Fv10Ck1CdDk20I12B1Ia80VD410VCh20K310VMo30VC720M310Qi1061hE9D20-d10+s10+n10g10BAe10410",
  "c10BAj104B80-k10+d10e10a10BBqCs4Gm20B420KcBb5Ef20Lj20Ls80BTn10Bxg70Ed10BP918BPc27Bq1022C0Bp2",
  "B04B40o10C910c10q10g10310910b2BdBi20D910e10420l10520E620D910Dg38Hv1BsN61DsCtBhC1B4aD9k20B01p",
  "p3Ft63EkD4CNm0EYaMkEkO+a20460cBf0OF1XskBR8CE30Hy510410k14610010g10Bi10CQ-g10CEy17F8Fxj386Dd0",
  "IJr10Ia15I710210Xg1sXb20210x810x510414410410Bb14-u10NL210OJv14410+814410+920810410Ns10Nn10-a",
  "14NM410OKd14810OKg10NKr10+h10OKu18MX514B410BVr10i14614BTo10s14ae0HcB30-l10-t10+410W910Wo10+b",
  "10+i10410818610NR210NNr10Cv10NRg10NOb10Cr1011c410614k10Nf14Ns10NJ414NJ110BB318BBc10ScC1J9NEi",
  "70D730OY32FtOy4as29kibsm9si9kicdo9si2fNxl2bBqBr4N-410E110Ny730qa0Nxi10Ny910Nye10Nyb80Br54OE0",
  "10Fl10Nyd80254OD010Gd10Nwp10OBg30PY990PRg10Nwn10Nx010Nwr5BaBwr70P+0u0P-vBg00h0B010Di3kD910r1",
  "0Q-e10Qz914B910Ea1B4Dr10r10Q-e10Qz914B920Dg10810k10i10-210+11c6104146D60B150+g34+71a010Lu16L",
  "r16620448416070g20BUu20BUt20t10Hk14I526410210QOg10QO11041cCW210CWj30BVe16p10q10PF256Qwp10214",
  "8n0140q50430n14h10i10740q50430n14h10i40QReN64HI8JmB0XzfCeD4Cg1D4Bh10EjBYmFsWA0Bh0420U+b10NR4",
  "10NPv39U-m20VBl10C010C110420VC230670WAn10o14yi1G5VE295i50aDt0GsJg0+GoCk0Zz4d0BIZt10Cg10s10i1",
  "0Bk10Co10e10B810Bk10BIa10Cc10c10Be10B810Ba10Da10Ba10m10Jm10Fs10Bo10a10Bs10i10Bm10q10Bi10D810",
  "B410Bm10BP810Eg10yo10Be10g10m10B410Eo10zq10D010Hg10Be10B610Bc10Dc10610Wk10k10o10q10H810g10a1",
  "0Ha10k10q10g10Dq10B210B410F010BEa10Cs10Ba10BO810a10F610B010q10Ba10Ce10a10Qm10Bg10C010B+g10E4",
  "10Be10Dk10Bg10i10e10D810a10C010CDe10xu10o10a10810g10B410410F210Ng10a10V610k10D410e10i10g10Fm",
  "10e10O810e10D210B210Cu10Oq10e10B210Ue10Hs10c10Lc10Fe10Cs10Xk10Ia10BDs10Bm10Di10D610E810m10c1",
  "0C210Eo10k10Vk10e10i10i10B010u10810Eu10810c10Bza10Bs10za10o10Be10Rm10q10Ee10Cs10BDe10u10u10C",
  "610Ca10Me10o10E610Pg10Bu10N210Ba10a10No10Lg10Hq10c10a10Bwc10i10Jo10Jk10610Cu10Gi10q10810e10G",
  "410C410c10s10Ke10D610810Le10610B610Po10D010e10Ec10k10610k10Bs10Ym10Z010k10Cc10Bc10g10k10810C",
  "g10810B210a10q10Bm10u10g10Dm10u108Bb0CPXv20sBk0X-820RSu146Hn4BBE910Ki10Kf14Kk18Kj1kKm10Jl18B",
  "710Bi1B4Bf1CgEu24G114L410810410a10810410Lp10M210414M31041441081041g410610810k10e10a14Ka18Jl1",
  "4Cm10614i10410k10640-Fu10Io10I510EN410EN110C610C310TSe10TNh10Dv10Bf10FSg10+h10EHbF50DJa10ESq",
  "10DQm10LAgp0BVIt1441841041441g410CNOs10CJg10BEo10CJg10BEo10BEo10CJg10CJg10BEo10CJg10BEo10BEo",
  "10BEo10BEo30HKf20ByKv10Io10I510EN410EEd10BNi10BWj10BWg10BQr10CO810Jye10EW610CDd10CQn10VKi10z",
  "L310HMc10BEa10S110JDa10ST110PGo10NCg10JU710TKh10TS810CK110Ny710xPc10+Tt10BEc10MXg10VRq10BEP7",
  "10BIg10Myk10OVh10C610C310Hzm10E+510Lf10EFo10D110NXq10T-310-yc10yX510CygB00UHj104104104144104",
  "1041041041041041041041041041041061041041k41061061061061g61041041k41c4yw2CpBwUukBlB820CRF1104",
  "E5pCRNe4Dp820095m20CFA51hCFAc50a20CSSd35CSSo4B5820CSU510j10a10m10320D810Bd10Bc10CULc1tBZr20C",
  "t10CSR310NQo15CFDk20CSWb1tCSWi20CTDvl0Sf10v10610m10CTYa30CTMt10Cox30CSz810CB010CUMn10CUOea0C",
  "UM97JsIR6TK10ByFi10SV710Tzc10BA310O+d10QJt10Cx616BFxe10BDEl10yI010-Ej10By210EKs10KH610ERo10D",
  "Lk10Xm10Ts10DZe10TIp10BRi10Bxs10BQa10IFu10GSq10EIe10BFWt10CP610LYu10DRe10KB410L+210BAMr10JJm",
  "10K-410BZe10TJl10PQu10DEe10UV910EEq10DF610CZ410Oz410BAUf10BD210Se10I-c10DAu10DTq10CNe10ERk10",
  "DAa10Fc10DZ610EU610CDq10BIm10SWr10P610CC210DCi10HTm10FXm10Jwh10Y+d10DCa10OVo10CBs10HBn10DGg1",
  "0J+g10FDa10+Bt10BYk10Gx210Bye10Ta10HC010Qg10MB810BBXh10Wxi10XKt10v10UF010Bw410DD610JI810FP91",
  "0UL110DT610QPo10-M910Gws10CCm10JXa10-i10RFh10S-810UTn10H-k10IZn10PLu10DV710Lwk10UVt10CJm10PK",
  "610GUg10DG210POv10R+c10RSf10EYj10P-e10PU910Iya10TLd10BLm10G010LLg10KGc10CYg10EG610DPq10+Nj10",
  "Uq10CT210CXi10DNi10FDi10ESo10OI610CLq10CCq10De10BGD510KCm10CL210R-m10YOr10BRo10H010BJk10FIi1",
  "0BCc10BU010CU210CCk10BHm10HLe10FDf10FTa10BSe10BAT510Io10BBk10OAm10L+k10-g10V-110So10BYc10ED6",
  "10IJ010EMh10SJ110EBa10COs10z610BG410JZc10Le10FT210Ko10I-s10CM410F410N010BEIp10VC610MAc10CQ81",
  "0wzd10JFl10BF810FR810F210EVk10CGi10Dyo10CH810HLk10FY010HR210yQ910Xwc10BBw910KP410Hg10CUs10Vm",
  "10CWq10V010BR410CKa10NUs10BDP110IM210wEk10BDEp10GOs10IN210QU010XZt10xi10DN610FX010RPu10BCFp1",
  "0-c10EFc10Ews10Tm10Vk10CDq10DS210zo10EZe10EVc10B410EOm10CRc10BBw510NXm10NJp10Ox610BMg10IW410",
  "IKi10Cx810BEg10xQf10DD810KBq10DRp10Fa10X410Ez310BCd10NLu10-Jf10wHc10YPn10D510GJu10CCq10NA610",
  "QV110IZi10DGj10UIe10DOt10HA210GM310VLf10GZ510CI030BJk20HBk30KJb10QUo10Bw010BH410C410e10Ck10O",
  "ye10NJf10BPu20DFa20COc30CU010Ma40D+410q10Co10CIo10GNb10Czi10BDQh10Ti10Gc10Xo10Bm10Gq10BEo10G",
  "i10G410zg10Gg10Bxo10k10CCc10N810Cc10G810BVq10J610Ku10+810CP410K610Qg10BEo10Lq10+e10CGu10Kq10",
  "m10110g10c10e14D010L410E210Tu10BD810Ba10Dg10T210J610-g16Io10zs10CLi10Ic10Wm10Dg10Zk10Da10BKs",
  "10I410DKm10Ro10Do10xyb10HRHi10HANb30Z+310BYu10Ep10-f10ya10Dm10Ue10D610BK610Ef10E810Ei10BHg10",
  "Fi10J210B010Qs10Mc10Bwk10e10J010E810Sm10Hc10Eb10Ic10Cr10J410E410Z010Fg10Dc10Q810Rs10K610810D",
  "m10CC610E210Ye10Zk10v10Fe10Po10V010DDi10CX310Hk10Hm10Ue10Ja10Da10O410410Km10B210Bi10Fc10j10Y",
  "o10-a10Qu10Lm10O010Ji10Uk10Me10BUq10Jq10BYk10yg10Ea10B010Si10Di10Cp10Dc10510B110Eo10F210Xs10",
  "BD010Tk10Se10Nq10CAc10Ge10H610Ia10C810o10D010BNe10CIk10GEKs10b10FZ210HyDf10CHm10C210IJB010FI",
  "e10RA610HPYv10EmC70CMwn10B314618e10m10410CxtB76DEc1ek1e61e41eb1ea1eb1eCm1e41eC31e11e61e216c1",
  "6116416b16B016d1eBg1ec1e81e316i1e216a1e21e516B8162B2eCb16Bk16116426616b1681ee16IdjeI6Qh0DJv1",
  "0Xza24Xyd10Bj10Bs14Xzep0IA510116Px714Dd10F410414XZe14914d1451c630Xx71045a410D510Xza30Xyb1011",
  "0a10Br10P+614P-n10F410414XZe10X+310614810410u10410120Bu14Df10Bml4C-21401401401401a01621e2162",
  "1e21e21e21e21e21621621621621e21e21e21e21e21e21e21e21ee1e21e21e21e21e21e21621621e2dDsDCh1D4C2",
  "1EcBt14UQe10UVf14Xzs10n10Pk10h10F110410410410410Dk10410410C710Di10Fj104104104144104104104104",
  "1041041041041041041041061041041k41061061061061g61041041k410410814Fj24PZj10Ki10Kf14Kk18Kj1kKm",
  "10Jl18B710Bi1B4Bf4kEu3k23k238244IN510i20b10110QA820CFi1cBX310CAq10CmBAiEsDPFqE9EcIiEtB8Jo2Bo",
  "42o4244Pc4EBOn10-l10x610Eb20F010CUM610CUM110114Er10NTk10NTh10c10Em10E910310310Dm10X710Xa10D9",
  "10Bq14Cc10Dt10HOJg10ExXb10CSRv10HOJe10HOHd10HOHg10HPAr14Xs10BAb10BAi10HOIs14HOIl10410Cg10310",
  "CUM210CULv10Bt10U-i20U-314B410j18Nf10HOUg10B8BG6G8DJFrEuCkHsCZrDsFTmVM1DsBKY2C1D0DoXQuD4FXH3",
  "1B4EjBY7D4Cg1D4Bh1D4Bh1oBh2C441D4Bh1D4Bh15Bh1023063463c62s41cBh2541k22B841D4Bh1D4Bh14Bh2c43s",
  "62o42D4Bf14Bh2c42g42044o82D4Bf1D4Bh1D4Bh1D4Bh1D4Bh1D4Bh1D4Bh1D4Bh1D4Bh1D4Bh1D4Bh1D4Bh1D4Bh10",
  "Le10Qc3C0Xk10h1om10PDs1C0PFb1641k210PDi10PEp10610410o1091011C0t10h1om10PDs1C0PFb1641k210PDi1",
  "0PEp10610410o1091011C0t10h1om10PDs1C0PFb1641k210PDi10PEp10610410o1091011C0t10h1om10PDs1C0PFb",
  "1641k210PDi10PEp10610410o1091011C0t10h1om10PDs1C0PFb1641k210PDi10PEp10610410o10910116Bq3B4Bw",
  "p1B4h1B4h1B4h1B4hCBhB0B+e1841B8410614410CRDm10CQwv10I510410J210Dj10C01B0Jt1441461041k414410E",
  "c10Dl10110k10Eo10CQwc10CQZvCEjE4HSH2BGv4HRRn10810620Bi10Bb10910k10B61cd10B510c10g10n10q10B11",
  "0614j10610410c10410410D810Eo10Bh10D320Ed10820Bm30Bj20Bq1cd10B510c10g10n10q20r14j10620g20870r",
  "50220Bq25b10B510c20710q20r30b20g20820I020El20Ed10820Bm30Bj10k10B615d10210B510c10g10n10q20r14",
  "j10620g10410410D820D624Hj10810614Bg10Bb10910k10B628b10B510c10g10n10q10B110614j10610410c10410",
  "460B310810620Bi10Bb10910k10B628b10B510c10g10n10q10B110614j10610410c104104Tg0Czd10u4D4B1Fp0YD",
  "me0YZc10DP710DYl10RQ910Oya10FIs10YMi10YLj10FI910LXo10FQ210FYf10JUn10GTu10G+t10KC610JZ510VSa1",
  "0EC510LYk10Zxh10CLd10NNm10GHt10M010KV910i10BBE210ZG710Hxh10Cyc10HR810VGi10VRp10LSs10Pi10TH31",
  "0NHg10DXd10110HCm10RM110BU810zZel0Yxb10FwfCMvB4BJxtB+A70BHA810910i10GZO210GYy310Es10q10Ee10H",
  "g10Bu10Es10Bf10OD110HIZo10GwOp10e10B010B610GZwa10HIG510OKs10Cc10GZxs10GZx710q10BNf10BO010i10",
  "JACk10I+-j10s10OS710OVo10m10Co10a10OW310Ox410410Bm10Bc14m10B210D410g10i10Bi10k1a410GxKq10GMx",
  "n10OKb10Ba10GxY810GxXf10c10Ba10Jg10Gb10B010C010Dk10F810Bk10E610B016C210Ba10B410g10u10V810Qv1",
  "0R210Mb10C610CGp10DOe10Rv10Cc10Bi10I310Ke10110Hm10G-Dg10Gz+310a10u10B810g10E010G-Uc10E410G-P",
  "r10Cu10o10Et10Is10RXf10s10SAo16Dc10G+Ik10G+A910Ba10u10o10G+Sa10G+Rh10e10BUq10BT110SK110SNu10",
  "s10F410D510HAVe10HAK110HAK610HAHf10510B214Ga10Sx510Sys10Cm10Ba10Co10TAd10HUS210HUQd10TD81061",
  "0610B810JCMg10JCJ716HCD610GQSv16RNt10TFl10Hy+210XS410IBHf10i10TIf10TLe10D610k10C410Ig10TUd10",
  "Br10TXg10HDE010HDAp10I210810410310Cs10B810C810r10m10Cu10B810810Bk10m10E410F810C610Ho10HDxo10",
  "HDyt10E110Go10Bm10G210HEAq10HDyt10Fp10Bn10UXl10VDm10Ba10Bu10Cb10VAl10VO610Bq10HFJs10HFCd10Ra",
  "10Kt10VSv10VXg10VYh10C710LKs10610KWm10G710NB210-N710RTs10810c10Dq10l10HGH010HyHj10WL210H910M",
  "q10D610HF-g10HFzt10Gt10Pa10WXd10Wwa10G210Ee10Ls10HF+m10HFyf10XM510XQi10HGYc10HGV510XQb10XS81",
  "0Cq14Bm10HHN410OY310O-u10HHKn10HIGs10HH+p10s10Gb10Ku10Cg10Di10Db10Cg10u10q10HHZi10HH-j10Pm10",
  "Du10YTl10YZg10710HIAk10HINf10Xa10HH+010D010HHyf10H610Bl10510ZI910ZL810D610b10Dc10GKHg10GJzv1",
  "0HIRs10HIMd10HJAu10HIY510q10Bm10HJxg10HJYf10Ba10HKK010Nu10HKJj10B210wNt10wPi16wOp10wYu10Ba10",
  "Ba10B810Ea10wwt10xAi10HLR410HLPf10HLV810HLS310GWCu10GVYt10HMZ210Be10Io10IIEf10o10xOo10HM+u10",
  "110Ce10Bk14HNB910010Cm10xR110xV410xU910F010IJYe10HNyt10Ds10E010x-h10IKU610HOMv10HOU810Cm10HO",
  "Tb10Fo10yLn10yR210k10a10HPSq16Sm10HPxh10yOn10IMwi10HP-910610yw310INFi10HPwr10zD310zEg10910Bq",
  "10HRIc10HRC510zG310zMc10Dm10E610zR110IPP810Bu10IPOr10IPY010HRVt10HRy810HRwh10Ga10m10HSNa10Ei",
  "10HSM510HSUg10HSTf10GZOu10HXYj10-Nq10F210-Pf10-T610TIh10IGP410s10wC310i10GYZl10610GZk10BFT51",
  "0+Cc10b10B410X-j10X+s10410k10Ci10HUFc10HUFd10Dg10Ec10Ek10Ij10Jk10Ck10H010Q710He10410B010HUFk",
  "10Ta10Jb10ITwj10+yc10410C610HXL810HXGb10HUyg10IUyt10810IVF010S210IVWd10BAOa10o10m10410E010C1",
  "10Ic10Cn10Je10F110E610Bm10BAwt10BBAk10C010BBAf10BBGe10610HXA810HWYv10e10BBKh10BBMa10BKDt10JB",
  "+610Lg10IZKf10i10BBzi10Eq10Jq10Mm10HYF610HX+p10Bc10Fk10Fo10HYxg10BxSl10FzDh10t10D810FzOs10Fz",
  "Aj10G810HxJk10Bm10HwVh10Fq10C010HxBq10HxB510Rq14Ju10Fn10Xq10Bo10Hx-a10HxGt10BF+b10BGC410Hxy0",
  "10JBZ110BGNq10yR110yX210HzC410Na10JDwn10g10BGWk10H-Ck10JEVf10JE-816H-Il10Bs10H-Yq10H-N710BGw",
  "t10BG+c10Hs10Bm10Do10BHCv10JHW410IABr10Ss10Lq10BICt10Bu10BIHk10IBWe10JJzb10JKAq10Qi10I610IBz",
  "b10BIW910BIw610a10e10k10e10Ca10IDMa"]

/-- Characters that are replaced by several: for each the distance to the one before, the number of
its replacements, and the moves from one to the next. -/
def packedSeveral : List String := [
  "F82C0BOg72BOfBO852BO7BO242BO1BQe43BPbQB6QAv135QB6QB3132QB2QAvDi2DaBJs22BJr21212c24Em12ElEm92",
  "BAaBErDr2jRk12RjRk12RjRk12R3312431243128712871287B52bBc12BbBc12BbBcH52FjBOc12BObBOe12BOdBOk1",
  "2BOjBQg12BQfBO612BO5BOmD725dBm2BO1BZia2BZhBO213BO1BOgdQ22BG8BqHe2KaEq12CnCo12F6F512CjCkX02BK",
  "2Ce12CbCc12C9Ca12BvC012BlBm12BjBk12B1B212pqDt2GaBm12BjBk22pqCk2Hck3278B32CbCc12C9Ca12BvC032B",
  "1B2Hu2OaBm12BjBkWm2BR2BlE02JmBlB92dB312B4jD62K2Haa2GlGm52GbGc52G1G252FnFod2HdHaa2E72221612Ds",
  "D313D4E1u12D6D513D6E3u82tui2B4Caa2BlBm52BbBc52B1B252nod2CdCaDX12HV7BFqH62OE4NUd12NUgNUf12NUi",
  "NUh12NUkNUj12NUmNUl12NUoNUn12NUqNUp12NUsNUr12NUeNUd12NUgNUf12NUiNUh12NUkNUj12NUmNUl12NUoNUn1",
  "2NUqNUp12NUsNUr12NWeNWd12NWgNWf12NWiNWh12NWkNWj12NWmNWl12NWoNWn12NWqNWp12NWsNWr12NWeNWd12NWg",
  "NWf12NWiNWh12NWkNWj12NWmNWl12NWoNWn12NWqNWp12NWsNWr12NweNwd12NwgNwf12NwiNwh12NwkNwj12NwmNwl1",
  "2NwoNwn12NwqNwp12NwsNwr12NweNwd12NwgNwf12NwiNwh12NwkNwj12NwmNwl12NwoNwn12NwqNwp12NwsNwr32Nxe",
  "Nxd12fg12pq32N+qN+p52fg12BZhBP622BP5BP612BP5BS413BS3BOgDk12OD4Nxl123412lm32OAqOAp523413BZhBP",
  "6B513BNvBP6B313BO1BP6Cue3BS3BP8B713BNvBP8B513BO1BP8Cse3BS3BOgf13BNvBOgd42OHmNy512B0v12BaB932",
  "ODqODp52B0v12BZhBO212BO1BP8p2BP7BR6s2OPu01300022601300052QB70221BOa92BMb0120Br120Bse4P+6000C",
  "h2Pxv2Co3B3D3D8133D3E822DqEp230D7E013nD7Ec32DmEjd2g2a28b13ete12gdp3d9Bel3EdQB6QAp13bQB6QAl14",
  "fQB6QB51132QB6QB1131QB4QB1133QB6QAt135QB4QAt133QB2QAt131QB0QAt137QB6QAr131QAuQAr139QB6QAn139",
  "QB2QAn135QAuQAn131QAqQAn12dQB622Pzl013000120q220p13qp014qp00120u220t13ut0620013000120q220p13",
  "qp014qp00120u220t13ut0e3DhQB8QB1F32Q+g013000226013000Rp2Q+p112201202121412361258127a129c12be",
  "12dg12d313fif131kh131mj131ol131qn131sp131ur131B0t131B2v141i1d141i0f141i2h141i4j141i6l141i8n1",
  "41iap141icr141iet141igv141k3dl31DiDf131DkDh131DmDj131DoDl131DqDn131DsDp131DuDr131E0Dt131E2Dv",
  "131E4E1131E6E3131E8E5131EaE7131EcE9131EeEb131EgEd131EiEf131EkEh131EmEj131EoEl131EqEn131EsEp1",
  "31EuEr131F0Et131F2Ev131F4F1BKn4RA4000D83Q+106120013000D62VK0Tw9BNv2BRfYHi12YHhYHk32B34D02CiB",
  "aI13YJvINgINd131INkINh131INmINj131INqINn131INsINp131INuINr131IO2INv131IO6IO3131IO8IO5131IOcI",
  "O9131IOeIOb131IOgIOd131IOiIOf131IOkIOh131CVzgCVzd131CYH0CYGt131CZLoCZLl131CxV8CxV5131Cyw0CyZ",
  "t131Cz-oCz-l131DAI8DAI5131DCRoDCRl131DDWgDDWd131DGA0DF+t131DHEoDHEl131DIJgDIJd131DJO8DJO5131",
  "DKT0DKSt131DEN8DEN5141DC+o-0DDzl141DC+oIK0DLJl231BGzgBGzd131BHG8BHG5131BG-2BGzv131BLL6BLL313",
  "1BHGoBHGl131BIUaBIU7131BGzmBGzj131BIU6BIU3131BHDaBHD7131BJRiBJRf131BTO0BTNt131BYE6BYE3131BWA",
  "oBWAl131BTQ0BTPt131CIwiCIwf131BLPeBLPb131BSxqBSxn131BUA4BUA1131BTO2BTNv131ByRcByR9131BJ-aBJ-",
  "7131BZF2BZEv131CGHiCGHf131ByTaByT7131BJIoBJIl131BHLmBHLj131BKF8BKF5131BNTsBNTp131BxLmBxLj131",
  "BHNiBHNf131CGJuCGJr131BJSoBJSl131ByUaByU7131BHOiBHOf131CAy4CAy1131CAymCAyjd3Ee8t12D511220120",
  "2121412361258127a129c12be12b512631241122012021214t2DGA6PVf12OBow7Bk2DDS961258127a129c1297128",
  "51263124112201202121412361258127a1279122BTNe12BTNbBTNc12BTN9BTNa12BTN7BTN812BTN5BTN612BTN3BT",
  "N412BTN1BTN212BTMvBTN012BTMtBTMu13BTNd1BTNg13BTNd0BTNe13BTNd2BTNc12BTJv1133ql123B213jgvBg2BH",
  "I0Cwg14R-jCuCmD714CbEiBbD7142F2BhDf130FkB114EdCeCgE513nEuD313Bl6Ek15ElB2jEqD514C1F8F1F213F3E",
  "iDj13tF4Bn13D9dEc14DtDsCba14BpE45B413EvE2c13EdEeB912Cv3134BqD214EtDgaB414ErDqClDo12EtE015DvE",
  "0DpDih16D5E0nBmD7C615DrE04Cna13BfDih15CvDihBfCm15E7DoCtBfEi14DrDsuCt13BnEmE513bDgC113BdEiBt1",
  "4CfB1mDo15DbDsD3DmBn14ChD6iE513mDgD313bDgCl13fDoE512sv12B4C412C5Cm12Ch8130la13eClC015qCmE1Dg",
  "Cl13iCmDf14oCov115BdD3BeuC613BdC9Do12BdC112C0Bg15BbD7EgCbc14oD3FiD715sB5nvE813BbB8k15BlChB0D",
  "qB112B1Bp13Bqte13cB6Cd13BcBiDj13C2C4E713C2C6Dp14BsDhEuCl13B8uC512B6Bg13BbBcCj13B4C2B113vC2h1",
  "4B9DjmDs13tDjEe13pBlo13uqDn15CuBaDnD0o14B7CvDsc12B7m15lmBjCoB112jD914DaD9BoCm14B3BmD7C613dBg",
  "D513BmBgB1139E7F214hCdaC61211134BdCg14B1B2CbBa122n15oeClBbE2137Cna12YJfBYIi12BYIfBYIg12BYIdB",
  "YIe12BYIbBYIc12BYI9BYIa12BYI7BYI812BYI5BYI612BYI3BYI412BYI1BYI212BYHvBYI013BYIf1BYIi13BYIf0B",
  "YIg13BYIf2BYIe13BYIf4BYIc13BYIf6BYIa13BYIf8BYI813BYIfaBYI613BYIfcBYI413BYIfeBYI213BYIfgBYI01",
  "3BYId3BYIi13BYId1BYIg13BYId0BYIe13BYId2BYIc13BYId4BYIa13BYF1gt1265120B813B51B2125e12bp122i13",
  "hiDl13D4iDj12Dco12BO+sBZq12CBqIw112CJmJDo12CV9DKq14CJ1ERlH+9VC812ByMrt12qp12BVmBVl12on12kj12",
  "kh12ml12a91323m141f3m128j12gf12BVcBVb12BVcBV912cb1287122B413t5B413p9B413B52B413bnB412BU4BUv1",
  "22112fg121212be122112BUuBUt120012jk12341300Dl13D2kDl12DmDl13Di4Dl13Dm0Dj13D0kDj12DkDj13Dg4Dj",
  "13DkQwgQw314bQwgQw3E112Dst13kat13o6t13cit13B2B1615sB16Qx2Qw3161B16Qx2Qw3E112Ds6129a12BUiBUh1",
  "2bc125c12fg12BUcBUb12hi12lm12hi12be12hi12BUaBU912jk12no12jk12nBVs12BVnBVo22BWdu12r01202141Qx",
  "4Qwj7225312aB412B1d12eg12da12501204123i12f212141336f12ao12ll13m7613245128f23g051264122112261",
  "22B913B8QZuQwf13nQx8Qwf12DnBSx812BSx5BSx612BSx3BSx412BSx1BSx212BSwvBSx012BSwtBSwu12BSwrBSws1",
  "2BSwpBSwq12BSwnBSwo13BSx71BSxa13BSx70BSx813BSx72BSx613BSx74BSx413BSx76BSx213BSx78BSx013BSx7a",
  "BSwu13BSx7cBSws13BSx7eBSwq13BSx7gBSwo13BSx53BSxa13BSx51BSx813BSx50BSx613BSx52BSx413BSx54BSx2",
  "13BSx56BSx013BSx58BSwu13BSx5aBSws13BSx5cBSwq13BSx5eBSwo13BSx35BSxa13BSx33BSx813BSXrbmBRY12b0",
  "1206125c13b061350c12e21212d2CQ04123t12uh12B6f123d62GoC922DsDlb2D4Cf12CgCd13CeCpa13CgCpc12sBh",
  "12BiBf12BgB712BaB912BcBb12BeBd12BgBf12BiBh12BkBj22BoBn12BqBp12BsBr12BuBt12C0Bv22C4C322C8C712",
  "CaC922CeCd12CgCf22CkCj12CmCl12CoCn12CqCp12CsCr12BiBn12BgB312BoBn12CaC912B2oEe2OmF5d2Er212121",
  "21Ku12KtKu12KtC412C3C412C3K212K1K212K1K012JvK012JvK412K3K412K3Kk12KjKk12KjKk12KjC612C5C612C5",
  "C652C5c12be12dBu12BtC612C5C812C38127a129c12bBq12BpC212C1C412Bv412361258127Bm12BlBu12BtC012Bt",
  "2121Bk12BjBs12BrBu12Br2121Bi12Bf1122Bg12Bd31241122Be12B3d12eb12c912aB412vf12gB012tj12kh12if1",
  "2gu12rj12ks12pq12np12qo12lr12sm127B912BaB712B8B512B68127g12fi12fB912Ba6125e12dg12dBn12BoBd12",
  "BeBb12BcB912Ba21214123c12be12bBf12BgBd12BeBb12Bc2121a129c129Bh12BiBf12BgBd12Be01208127a127Bj",
  "12BkBh12BiBf12Bg112261258125Bl12Bm312441236120Br12BsBp12BqBn12Bo912a1122012BjE012DtDu12CdCe1",
  "3DEvDCoa13DD1DCq813DD1DCs613DD1DCu413DD1DD0213DD1DD2Bu12Ejm12lo12nBu12BtC012BvC612C5C812C3i1",
  "2hk12jBq12BpBs12BrC212C1C412Bve12dg12fBm12BlBo12BnBu12BtC012Btc12be12dBk12BjBm12BlBs12BrBu12",
  "hg12fi12fe12dg12dBn12Bo21214123c12be12b2121a129c129Br12Bs0122B912BaB712B81122012061258121Ce1",
  "2CbBh12BiBf12Bg912a71281122012C7c12be12dg12fBu12BtC212Bt8127a129c12bBq12BpBu12Bp412361258127",
  "Bm12BlBq12BnBk12Bh2121Bi12Bf1122Bg12Bd3124Be12B3d12eb12c912aB412vf12gd12eB012tj12kh12if12gu1",
  "2rj12mq12np12qo12lr12sm127B912BaB712B8B512B68125B912Ba6123Bd12BeBb12BcB912Ba21214121Bf12BgBd",
  "12BeBb12Bc21216123Bh12BiBf12BgBd12Be0122Bj12BkBh12BiBf12Bg11222120Bl12Bm3124Ci12CbBr12BsBp12",
  "BqBn12Bo912a512C1Bu12BtC212BtBq12BpBu12BpBm12BlBq12BnBk12BjBo12B7B412B3B812B5B212B1B61272121",
  "4121212211222126912a513ds613B1u413B1B0212BjB412B3B612B1B012vB212vu12tB012BdBc12BbBe12BbBa12B",
  "9Bc12BpBo12BnBq12BrBq12BpBs12BnBm12BlBo12B9B812B7Ba12B7B612B5B812Bbf12gd12eb12cB212B15124312",
  "8712a912cB412B3B612B1B012vB212vu12tB012BdBc12BbBe12BbBa12B9Bc12BpBo12BnBq12BrBq12BpBs12BnBm1",
  "2BlBo12B9B812B7Ba12B7B612B5B812Bbf12gd12eb12cB212B151243128712a9126f12gd12eb12cB212B3B812B5B",
  "612vs12B3d12eb12c912cf12gd12eb12is12pq12BrC812C7C8j3C14Bi13Bl61133611336Bg13Bl8Be13BlBmBh133",
  "BmBf135BmBd133BiBf131BiBf130Bga13BpBg813Bbb113ed213cdBq13BbB4Bf13cB4Bf13cB4Bh13eB4013B3B4013",
  "vf013gf013gB0013B1dBg13B1dBg13B1fBs13BbB2Bd13cB2Bd13cB2013B1B2013thBo13B5fBe13tfBe13rsBf13ks",
  "Bf13ks013rsa13B1pBi13no013no013no813tm013lma13vm813fB5Be137B5Be1356Bf13Ba60131BdBg131BdBq13b",
  "BdBo139Bf013BgBf013BgBbBe131BbBe1312Bf13Be2Bf13BgBf113BiBfBg130BfBq139Bh213BgBhBi130Bd313BiB",
  "dBe330Bh413Bi3Bh13Bm30132BhBg132BhBo135BjBi132BjBi132BjBq1351a137181329013a9013BpcBo13Bv4Bs1",
  "3Bv4Bq13Bt8Bo13Bv8Bm13BtBma13BvBm813BpBia13Br2Bo13BpBi813Bb9Bm13B7fBq13BbdBq13B7hBq13bBfBs13",
  "b2a130BpBq130BrBs1309a1390a13f6a137BhBq13f6Bf13BeBdBg13noa13d4a137Bj213BgBdBo13bBfBi13340131",
  "BfBi132Bj21312Bq13Bp1Bs139BhBs13h8a13C3aBq13d4013npBi13vB0013B39Bo137BjBsB93B9uIs13Iv4Is14Kl",
  "Bq0614BvBoBli14B8BfBgBb14culo14B74Ba714lmc5142B9B2213vua1iB7uaDChDAeBq06DCdDBimc5DCdDCgB9B22",
  "18BhBgDC7DAoBgBpBq614BbJmK9BqCd2DC7BOa12BO9BOa12BO9BOa12BO9BOaB42BO9DCm12lm12DClDCo22DCnDCq2",
  "2DCpDCs12rs12DCrDCu12tu12DCtDD012vB012DCvDD212B1B212DD1DD412B3B4Dm2rC312C4C312C4C112C2C112C2",
  "Bt12BuBt12BuBp12BqBpH72DAdBO8BULr2HHF6s12pq13pqi13Bbqk13Bdqm13Bfqo13BhqqCn2EeF712FaF913F8F7i",
  "13EoF9i13EmF7k13EmF9kHw12HITt712a912cb12ed12gf12ih12kj12ml12on12qp637DiDf131DkDh131DmDj131Do",
  "Dl131DqDn131DsDp131DuDr131E0Dt131E2Dv131E4E1131E6E3131E8E5131EaE7131EcE9131EeEb131EgEd131EiE",
  "f131EkEh131EmEj131EoEl131EqEn131EsEp131EuEr131F0Et131F2Ev131F4F113X-mXw1Xw432Xx3212B66s2B3s1",
  "2hi125t12u01350c122B7r2kj12kh12iaB42rcDg2YB2Cv12Gg0Bv3JtxRgxRd131O+aO+7131PHgPHd131VXaVX7131",
  "BAKaBAK7131ZDuZDr131BDM6BDM3131RMiRMf131wU6wU3"]

/-- Characters at equal distances whose replacements are at equal distances too. -/
structure Run where
  /-- The first character. -/
  first : Nat
  /-- How many characters follow the first. -/
  more : Nat
  /-- The distance between two of them. -/
  step : Nat
  /-- What replaces the first. -/
  target : Nat
  /-- The distance between two replacements. -/
  stride : Nat
deriving DecidableEq, Repr

/-- The two distances of the four forms that runs have. -/
def Run.distances : Nat → Nat × Nat
  | 0 => (1, 1)
  | 1 => (2, 2)
  | 2 => (1, 0)
  | _ => (2, 1)

/-- The runs of a packed table, read on from the last character and the last replacement. -/
def Run.unpackFrom (source target : Nat) : List Nat → List Run
  | distance :: form :: move :: rest =>
    let run : Run :=
      { first := source + distance
        more := form / 4
        step := (distances (form % 4)).1
        target := Text.Packed.moved target move
        stride := (distances (form % 4)).2 }
    run :: unpackFrom (run.first + run.step * run.more) (run.target + run.stride * run.more) rest
  | _ => []

/-- What replaces a character, if the run holds it. -/
def Run.replacement? (run : Run) (c : Nat) : Option Nat :=
  let way := c - run.first
  if run.first ≤ c ∧ way % run.step = 0 ∧ way / run.step ≤ run.more then
    some (run.target + run.stride * (way / run.step))
  else none

/-- Numbers that each are given by the move from the one before. -/
def unpackMoves (before : Nat) : List Nat → List Nat
  | [] => []
  | move :: rest => Text.Packed.moved before move :: unpackMoves (Text.Packed.moved before move) rest

/-- The characters of a packed table that are replaced by several, read on from the last character
and the last replacement. -/
def unpackSeveral (source target : Nat) (ns : List Nat) : List (Nat × List Nat) :=
  match ns with
  | distance :: count :: rest =>
    let targets := unpackMoves target (rest.take count)
    (source + distance, targets)
      :: unpackSeveral (source + distance) (targets.getLastD target) (rest.drop count)
  | _ => []
termination_by ns.length
decreasing_by simp; omega

/-- The boundaries of the characters that are kept. -/
def keptBoundaries : List Nat := Text.Packed.positions 0 (Text.Packed.numbers packedKept)

/-- The boundaries of the characters that are dropped. -/
def droppedBoundaries : List Nat := Text.Packed.positions 0 (Text.Packed.numbers packedDropped)

/-- The runs of characters that are replaced by one. -/
def runs : List Run := Run.unpackFrom 0 0 (Text.Packed.numbers packedRuns)

/-- The characters that are replaced by several. -/
def several : List (Nat × List Nat) := unpackSeveral 0 0 (Text.Packed.numbers packedSeveral)

/-- Whether a character beyond ASCII is kept as it is. -/
def isKept (c : Char) : Bool := Text.oddBoundariesUpTo c.toNat keptBoundaries

/-- What becomes of a character of a domain name; nothing if it is refused. A character of ASCII is
never refused here. -/
def mapped? (c : Char) : Option (List Char) :=
  if c.toNat < 0x80 then some [c.toLower]
  else if isKept c then some [c]
  else if Text.oddBoundariesUpTo c.toNat droppedBoundaries then some []
  else
    match runs.findSome? (·.replacement? c.toNat) with
    | some target => some [Char.ofNat target]
    | none => (several.find? (·.1 = c.toNat)).map fun entry => entry.2.map Char.ofNat

end Larder.Endpoint
