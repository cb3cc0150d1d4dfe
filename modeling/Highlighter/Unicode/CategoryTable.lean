/-!
The general categories of all code points, in order: each run is its length in
hexadecimal and the code of its category, or a hyphen if the code points are
unassigned.  Of a run of `LC` every other code point, from the first on, is an
uppercase letter, and those between are lowercase.
-/
namespace Highlighter.Unicode

/-- Runs of code points of one general category, from the first code point on. -/
def categoryRuns : String :=
  String.join
    [ "20Cc1Zs3Po1Sc3Po1Ps1Pe1Po1Sm1Po1Pd2PoaNd2Po3Sm2Po1aLu1Ps1Po1Pe1Sk1Pc1Sk1aLl1Ps1Sm1Pe1Sm",
      "21Cc1Zs1Po4Sc1So1Po1Sk1So1Lo1Pi1Sm1Cf1So1Sk1So1Sm2No1Sk1Ll2Po1Sk1No1Lo1Pf3No1Po17Lu1Sm7Lu",
      "18Ll1Sm8Ll36LC1Lu2LleLC1Lu2Ll2eLC2Lu1Ll2LC1Lu3Ll2Lu1Ll2LC2Lu1Ll3Lu2Ll4Lu1Ll2Lu1Ll3Lu3Ll2Lu",
      "1Ll2Lu1Ll4LC2Lu1Ll1Lu2Ll2LC2Lu1Ll3Lu1Ll2LC2Lu2Ll1Lo1Lu3Ll4Lo1Lu1Lt1Ll1Lu1Lt1Ll1Lu1Lt1LleLC",
      "1Lu2Ll10LC1Lu2Ll1Lu1Lt1Ll2LC3Lu1Ll38LC1Lu7Ll2Lu1Ll2Lu2Ll2LC4Lu1Ll6LC1Lu45Ll2Lo1aLl12Lm4Sk",
      "cLmeSk5Lm7Sk1Lm1Sk1Lm11Sk70Mn4LC1Lm1Sk2LC2-1Lm3Ll1Po1Lu4-2Sk1Lu1Po3Lu1-1Lu1-2Lu1Ll11Lu1-",
      "9Lu23Ll1Lu2Ll3Lu3Ll16LC1Lu5Ll2LC1Sm2LC2Lu2Ll33Lu30Ll22LC1So5Mn2Me36LC2Lu1LlaLC1Lu2Ll60LC1-",
      "26Lu2-1Lm6Po29Ll1Po1Pd2-2So1Sc1-2dMn1Pd1Mn1Po2Mn1Po2Mn1Po1Mn8-1bLo4-4Lo2Pob-6Cf3Sm2Po1Sc",
      "2Po2SobMn1Po1Cf3Po20Lo1LmaLo15MnaNd4Po2Lo1Mn63Lo1Po1Lo7Mn1Cf1So6Mn2Lm2Mn1So4Mn2LoaNd3Lo2So",
      "1LoePo1-1Cf1Lo1Mn1eLo1bMn2-59LobMn1Loe-aNd21Lo9Mn2Lm1So3Po1Lm2-1Mn2Sc16Lo4Mn1Lm9Mn1Lm3Mn",
      "1Lm5Mn2-fPo1-19Lo3Mn2-1Po1-bLo5-18Lo1Sk7Lo2Cf5-9Mn29Lo1Lm18Mn1Cf20Mn1Mc36Lo1Mn1Mc1Mn1Lo3Mc",
      "8Mn4Mc1Mn2Mc1Lo7MnaLo2Mn2PoaNd1Po1LmfLo1Mn2Mc1-8Lo2-2Lo2-16Lo1-7Lo1-1Lo3-4Lo2-1Mn1Lo3Mc4Mn",
      "2-2Mc2-2Mc1Mn1Lo8-1Mc4-2Lo1-3Lo2Mn2-aNd2Lo2Sc6No1So1Sc1Lo1Po1Mn2-2Mn1Mc1-6Lo4-2Lo2-16Lo1-",
      "7Lo1-2Lo1-2Lo1-2Lo2-1Mn1-3Mc2Mn4-2Mn2-3Mn3-1Mn7-4Lo1-1Lo7-aNd2Mn3Lo1Mn1Poa-2Mn1Mc1-9Lo1-",
      "3Lo1-16Lo1-7Lo1-2Lo1-5Lo2-1Mn1Lo3Mc5Mn1-2Mn1Mc1-2Mc1Mn2-1Lof-2Lo2Mn2-aNd1Po1Sc7-1Lo6Mn1-",
      "1Mn2Mc1-8Lo2-2Lo2-16Lo1-7Lo1-2Lo1-5Lo2-1Mn1Lo1Mc1Mn1Mc4Mn2-2Mc2-2Mc1Mn7-2Mn1Mc4-2Lo1-3Lo",
      "2Mn2-aNd1So1Lo6Noa-1Mn1Lo1-6Lo3-3Lo1-4Lo3-2Lo1-1Lo1-2Lo3-2Lo3-3Lo3-cLo4-2Mc1Mn2Mc3-3Mc1-",
      "3Mc1Mn2-1Lo6-1Mce-aNd3No6So1Sc1So5-1Mn3Mc1Mn8Lo1-3Lo1-17Lo1-10Lo2-1Mn1Lo3Mn4Mc1-3Mn1-4Mn7-",
      "2Mn1-3Lo1-2Lo2-2Lo2Mn2-aNd7-1Po7No1So1Lo1Mn2Mc1Po8Lo1-3Lo1-17Lo1-aLo1-5Lo2-1Mn1Lo1Mc1Mn5Mc",
      "1-1Mn2Mc1-2Mc2Mn7-2Mc5-3Lo1-2Lo2Mn2-aNd1-2Lo1Mcc-2Mn2Mc9Lo1-3Lo1-29Lo2Mn1Lo3Mc4Mn1-3Mc1-",
      "3Mc1Mn1Lo1So4-3Lo1Mc7No3Lo2Mn2-aNd9No1So6Lo1-1Mn2Mc1-12Lo3-18Lo1-9Lo1-1Lo2-7Lo3-1Mn4-3Mc",
      "3Mn1-1Mn1-8Mc6-aNd2-2Mc1Poc-30Lo1Mn2Lo7Mn4-1Sc6Lo1Lm8Mn1PoaNd2Po25-2Lo1-1Lo1-5Lo1-18Lo1-",
      "1Lo1-aLo1Mn2Lo9Mn1Lo2-5Lo1-1Lm1-7Mn1-aNd2-4Lo20-1Lo3SofPo1So1Po3So2Mn6SoaNdaNo1So1Mn1So1Mn",
      "1So1Mn1Ps1Pe1Ps1Pe2Mc8Lo1-24Lo4-eMn1Mc5Mn1Po2Mn5LobMn1-24Mn1-8So1Mn6So1-2So5Po4So2Po25-",
      "2bLo2Mc4Mn1Mc6Mn1Mc2Mn2Mc2Mn1LoaNd6Po6Lo2Mc2Mn4Lo3Mn1Lo3Mc2Lo7Mc3Lo4MndLo1Mn2Mc2Mn6Mc1Mn",
      "1Lo1McaNd3Mc1Mn2So26Lu1-1Lu5-1Lu2-2bLl1Po1Lm3Ll149Lo1-4Lo2-7Lo1-1Lo1-4Lo2-29Lo1-4Lo2-21Lo",
      "1-4Lo2-7Lo1-1Lo1-4Lo2-fLo1-39Lo1-4Lo2-43Lo2-3Mn9Po14No3-10LoaSo6-56Lu2-6Ll2-1Pd26cLo1So1Po",
      "11Lo1Zs1aLo1Ps1Pe3-4bLo3Po3Nl8Lo7-12Lo3Mn1Mc9-13Lo2Mn1Mc2Po9-12Lo2Mnc-dLo1-3Lo1-2Mnc-34Lo",
      "2Mn1Mc7Mn8Mc1Mn2McbMn3Po1Lm3Po1Sc1Lo1Mn2-aNd6-aNo6-6Po1Pd4Po3Mn1Cf1MnaNd6-23Lo1Lm35Lo7-5Lo",
      "2Mn22Lo1Mn1Lo5-46Loa-1fLo1-3Mn4Mc2Mn3Mc4-2Mc1Mn6Mc3Mn4-1So3-2PoaNd1eLo2-5Lob-2cLo4-1aLo6-",
      "aNd1No3-22So17Lo2Mn2Mc1Mn2-2Po35Lo1Mc1Mn1Mc7Mn1-1Mn1Mc1Mn2Mc8Mn6McaMn2-1MnaNd6-aNd6-7Po1Lm",
      "6Po2-eMn1Me1fMn2-cMn14-4Mn1Mc2fLo1Mn1Mc5Mn1Mc1Mn5Mc1Mn2Mc8Lo1-2PoaNd7PoaSo9Mn9So3Po2Mn1Mc",
      "1eLo1Mc4Mn2Mc2Mn1Mc3Mn2LoaNd2cLo1Mn1Mc2Mn3Mc1Mn1Mc3Mn2Mc8-4Po24Lo8Mc8Mn2Mc2Mn3-5PoaNd3-3Lo",
      "aNd1eLo6Lm2Po9Ll2LC5-2bLu2-3Lu8Po8-3Mn1PodMn1Mc7Mn4Lo1Mn6Lo1Mn2Lo1Mc2Mn1Lo5-2cLl3fLmdLl1Lm",
      "22Ll25Lm40Mn94LC1Lu9Ll60LC1Lu9Ll8Lu6Ll2-6Lu2-8Ll8Lu8Ll8Lu6Ll2-6Lu2-8Ll1-1Lu1-1Lu1-1Lu1-1Lu",
      "8Ll8LueLl2-8Ll8Lt8Ll8Lt8Ll8Lt5Ll1-2Ll4Lu1Lt1Sk1Ll3Sk3Ll1-2Ll4Lu1Lt3Sk4Ll2-2Ll4Lu1-3Sk8Ll",
      "5Lu3Sk2-3Ll1-2Ll4Lu1Lt2Sk1-bZs5Cf6Pd2Po1Pi1Pf1Ps2Pi1Pf1Ps1Pi8Po1Zl1Zp5Cf1Zs9Po1Pi1Pf4Po2Pc",
      "3Po1Sm1Ps1PebPo1Sm1Po1PcaPo1Zs5Cf1-aCf1No1Lm2-6No3Sm1Ps1Pe1LmaNo3Sm1Ps1Pe1-dLm3-22Sce-dMn",
      "4Me1Mn3MecMnf-2So1Lu4So1Lu2So1Ll3Lu2Ll3Lu1Ll1So1Lu2So1Sm5Lu6So1Lu1So1Lu1So1Lu1So4Lu1So1Ll",
      "4Lu1Ll4Lo1Ll2So2Ll2Lu5Sm1Lu4Ll1So1Sm2So1Ll1So10No23Nl2LC4Nl1No2So4-5Sm5So2Sm4So1Sm2So1Sm",
      "2So1Sm7So1Sm1fSo2Sm2So1Sm1So1Sm1fSo10cSm8So1Ps1Pe1Ps1Pe14So2Sm7So1Ps1Pe51So1Sm1eSo19Sm28So",
      "6Sm48So16-bSo15-3cNo4eSo16Nob7So1Sm9So1Sm36So8Sm6fSo1Smf8So1Ps1Pe1Ps1Pe1Ps1Pe1Ps1Pe1Ps1Pe",
      "1Ps1Pe1Ps1Pe1eNo2cSo5Sm1Ps1Pe1fSm1Ps1Pe1Ps1Pe1Ps1Pe1Ps1Pe1Ps1Pe10Sm100So83Sm1Ps1Pe1Ps1Pe",
      "1Ps1Pe1Ps1Pe1Ps1Pe1Ps1Pe1Ps1Pe1Ps1Pe1Ps1Pe1Ps1Pe1Ps1Pe3fSm1Ps1Pe1Ps1Pe20Sm1Ps1Pe102Sm30So",
      "15Sm2So6Sm27So2-8aSo30Lu30Ll2LC3Lu2Ll6LC4Lu1Ll1Lu2Ll1Lu6Ll2Lm3Lu1Ll60LC1Lu2Ll6So4LC3Mn2LC",
      "5-4Po1No2Po26Ll1-1Ll5-1Ll2-38Lo7-1Lm1Poe-1Mn17Lo9-7Lo1-7Lo1-7Lo1-7Lo1-7Lo1-7Lo1-7Lo1-7Lo1-",
      "20Mn2Po1Pi1Pf1Pi1Pf3Po1Pi1Pf1Po1Pi1Pf9Po1Pd2Po1Pd1Po1Pi1Pf2Po1Pi1Pf1Ps1Pe1Ps1Pe1Ps1Pe1Ps",
      "1Pe5Po1LmaPo2Pd4Po1Pd1Po1PsdPo2So3Po1Ps1Pe1Ps1Pe1Ps1Pe1Ps1Pe1Pd22-1aSo1-59Soc-d6So1a-10So",
      "1Zs3Po1So1Lm1Lo1Nl1Ps1Pe1Ps1Pe1Ps1Pe1Ps1Pe1Ps1Pe2So1Ps1Pe1Ps1Pe1Ps1Pe1Ps1Pe1Pd1Ps2Pe1So9Nl",
      "4Mn2Mc1Pd5Lm2So3Nl1Lm1Lo1Po2So1-56Lo2-2Mn2Sk2Lm1Lo1Pd5aLo1Po3Lm1Lo5-2bLo1-5eLo1-2So4NoaSo",
      "20Lo26So9-1So10Lo1fSo1-aNo1eSo8No1SofNo20SoaNo27SofNo140So19c0Lo40So5215Lo1Lm477Lo3-37So9-",
      "28Lo6Lm2Po10cLo1Lm3Po10LoaNd2Lo14-2eLC1Lo1Mn3Me1PoaMn1Po1Lm1cLC2Lm2Mn46LoaNl2Mn6Po8-17Sk",
      "9Lm2SkcLC1Lu3Ll3eLC1Lm8Ll4LC2Lu1Ll8LC1Lm2Sk4LC1Lo2LC1Lu3Ll14LC5Lu1Ll5Lu1LleLC4Lu1Ll2LC2Lu",
      "1LleLC1Lu14-4Lm2LC1Lo2Lm1Ll7Lo1Mn3Lo1Mn4Lo1Mn17Lo2Mc2Mn1Mc4So1Mn3-6No2So1Sc1So6-34Lo4Po8-",
      "2Mc32Lo10Mc2Mn8-2PoaNd6-12Mn6Lo3Po1Lo1Po2Lo1MnaNd1cLo8Mn2Po17LobMn2Mcb-1Po1dLo3-3Mn1Mc2fLo",
      "1Mn2Mc4Mn2Mc2Mn3McdPo1-1LmaNd4-2Po5Lo1Mn1Lm9LoaNd5Lo1-29Lo6Mn2Mc2Mn2Mc2Mn9-3Lo1Mn8Lo1Mn1Mc",
      "2-aNd2-4Po10Lo1Lm6Lo3So1Lo1Mc1Mn1Mc32Lo1Mn1Lo3Mn2Lo2Mn5Lo2Mn1Lo1Mn1Lo18-2Lo1Lm2PobLo1Mc2Mn",
      "2Mc2Po1Lo2Lm1Mc1Mna-6Lo2-6Lo2-6Lo9-7Lo1-7Lo1-2bLl1Sk4Lm9Ll1Lm2Sk4-50Ll23Lo2Mc1Mn2Mc1Mn2Mc",
      "1Po1Mc1Mn2-aNd6-2ba4Loc-17Lo4-31Lo4-800Cs1900Co16eLo2-6aLo26-7Llc-5Ll5-1Lo1MnaLo1SmdLo1-",
      "5Lo1-1Lo1-2Lo1-2Lo1-6cLo11Sk10So16bLo1Pe1Ps10So40Lo2So36Lo8So20-cLo1Sc3So10Mn7Po1Ps1Pe1Po",
      "6-10Mn1Po2Pd2Pc1Ps1Pe1Ps1Pe1Ps1Pe1Ps1Pe1Ps1Pe1Ps1Pe1Ps1Pe1Ps1Pe2Po1Ps1Pe4Po3Pc3Po1-4Po1Pd",
      "1Ps1Pe1Ps1Pe1Ps1Pe3Po1Sm1Pd3Sm1-1Po1Sc2Po4-5Lo1-87Lo2-1Cf1-3Po1Sc3Po1Ps1Pe1Po1Sm1Po1Pd2Po",
      "aNd2Po3Sm2Po1aLu1Ps1Po1Pe1Sk1Pc1Sk1aLl1Ps1Sm1Pe1Sm1Ps1Pe1Po1Ps1Pe2PoaLo1Lm2dLo2Lm1fLo3-6Lo",
      "2-6Lo2-6Lo2-3Lo3-2Sc1Sm1Sk1So2Sc1-1So4Sm2Soa-3Cf2So2-cLo1-1aLo1-13Lo1-2Lo1-fLo2-eLo22-7bLo",
      "5-3Po4-2dNo3-9So35Nl4No11So2No3So1-dSo3-1So2f-2dSo1Mn82-1dLo3-31Lof-1Mn1bNo4-20Lo4No9-14Lo",
      "1Nl8Lo1Nl5-26Lo5Mn5-1eLo1-1Po24Lo4-8Lo1Po5Nl2a-28Lu28Ll4eLo2-aNd6-24Lu4-24Ll4-28Lo8-34Lob-",
      "1PobLu1-fLu1-7Lu1-2Lu1-bLl1-fLl1-7Ll1-2Ll3-34Loc-137Lo9-16Loa-8Lo18-6Lm1-2aLm1-9Lm45-6Lo2-",
      "1Lo1-2cLo1-2Lo3-1Lo2-17Lo1-1Po8No17Lo2So7No1fLo8-9No30-13Lo1-2Lo5-5No16Lo6No3-1Po1aLo5-1Po",
      "1aLo26-38Lo4-2No2Lo10No2-2eNo1Lo3Mn1-2Mn5-4Mn4Lo1-3Lo1-1dLo2-3Mn4-1Mn9No7-9Po7-1dLo2No1Po",
      "1dLo3No20-8Lo1So1cLo2Mn4-5No7Po9-36Lo3-7Po16Lo2-8No13Lo5-8No12Lo7-4Poc-7No50-49Lo37-33Lud-",
      "33Ll7-6No24Lo4Mn8-aNd6-aNd4Lo1Lm1Lo16Lu3-5Mn1Pd1Lm16Ll8-2Smd0-1fNo1-2aLo1-2Mn1Pd2-2Lo10-",
      "3Lo1Lm2Lo8-1Po8So21-6Mn1dLoaNo1Lo8-16LobMn4No5Po16-12Lo4Mn4Po26-15Lo7No14-17Lo9-1Mc1Mn1Mc",
      "35LofMn7Po4-14NoaNd1Mn2Lo2Mn1Lo9-3Mn1Mc2dLo3Mc4Mn2Mc2Mn2Po1Cf4Po1Mna-1Cf2-19Lo7-aNd6-3Mn",
      "24Lo5Mn1Mc8Mn1-aNd4Po1Lo2Mc1Lo8-23Lo1Mn2Po1Lo9-2Mn1Mc30Lo3Mc9Mn2Mc4Lo4Po4Mn1Po1Mc1MnaNd1Lo",
      "1Po1Lo3Po1-14Nob-12Lo1-19Lo3Mc3Mn2Mc1Mn1Mc2Mn6Po1Mn2Lo1Mn3e-7Lo1-1Lo1-4Lo1-fLo1-aLo1Po6-",
      "2fLo1Mn3Mc8Mn5-aNd6-2Mn2Mc1-8Lo2-2Lo2-16Lo1-7Lo1-2Lo1-5Lo1-2Mn1Lo2Mc1Mn4Mc2-2Mc2-3Mc2-1Lo",
      "6-1Mc5-5Lo2Mc2-7Mn3-5Mnb-aLo1-1Lo2-1Lo1-26Lo1-1Lo3Mc6Mn1-1Mc2-1Mc1-4Mc1-2Mc1Mn1Mc1Mn1Lo1Mn",
      "1Lo2Po1-2Po8-2Mn1d-35Lo3Mc8Mn2Mc3Mn1Mc1Mn4Lo5PoaNd2Po1-1Po1Mn3Lo1e-30Lo3Mc6Mn1Mc1Mn4Mc2Mn",
      "1Mc2Mn2Lo1Po1Lo8-aNda6-2fLo3Mc4Mn2-4Mc2Mn1Mc2Mn17Po4Lo2Mn22-30Lo3Mc8Mn2Mc1Mn1Mc2Mn3Po1Lob-",
      "aNd6-dPo13-2bLo1Mn1Mc1Mn2Mc6Mn1Mc1Mn1Lo1Po6-aNd6-14Nd1c-1bLo2-1Mn1Mc1Mn2Mc4Mn1Mc5Mn4-aNd",
      "2No3Po1So7Lob9-2cLo3Mc9Mn1Mc2Mn1Po64-20Lu20LlaNd9Noc-8Lo2-1Lo2-8Lo1-2Lo1-18Lo6Mc1-2Mc2-2Mn",
      "1Mc1Mn1Lo1Mc1Lo1Mc1Mn3Po9-aNd46-8Lo2-27Lo3Mc4Mn2-2Mn4Mc1Mn1Lo1Po1Lo1Mc1b-1LoaMn28Lo6Mn1Mc",
      "1Lo4Mn8Po1Mn8-1Lo6Mn2Mc3Mn2eLodMn1Mc2Mn3Po1Lo5Pod-49Lo7-aPo56-1Mn1Mc3Mn1Mc1Mn1Mc58-21Lo1Po",
      "e-aNd6-9Lo1-25Lo1Mc7Mn1-6Mn1Mc1Mn1Lo5Poa-aNd13No3-2Po1eLo2-16Mn1-1Mc7Mn1Mc2Mn1Mc2Mn49-7Lo",
      "1-2Lo1-26Lo6Mn3-1Mn1-2Mn1-7Mn1Lo1Mn8-aNd6-6Lo1-2Lo1-20Lo5Mc1-2Mn1-2Mc1Mn1Mc1Mn1Lo7-aNd6-",
      "29Lo1Lm2Lo4-aNdf6-13Lo2Mn2Mc2Po7-2Mn1Lo1McdLo1-22Lo2Mc5Mn3-2Mc1Mn1Mc1MndPoaNd1Mn55-1Lof-",
      "15No8So4Sc11Sod-1Po39aLo66-6fNl1-5Pob-c4Loa4c-61Lo2Pod-430Lo10Cf1Mn6LofMna-f9bLo5-247Lo",
      "1ab9-1eLocMn3Mc3MnaNd6c6-239Lo7-1fLo1-aNd4-2Po4fLo1-aNd6-1eLo2-5Mn1Poa-30Lo7Mn5Po4So4Lm1Po",
      "1Soa-aNd1-7No1-15Lo5-13Lo1b0-3Lm28Lo2Lm3PoaNdc6-20Lu20Ll17No4Po5-19Lu2-19Ll2c-4bLo4-1Mn1Lo",
      "37Mc7-4MndLm40-2Lm1Po1Lm1Mnb-2Mc2Lm3Nl9-1cd6Lo29-20Lo61-73Lo21fd-4Lm1-7Lm1-2Lm1-123Lof-1Lo",
      "1d-3Lo2-1Loe-4Lo8-18cLo904-6bLo5-dLo3-9Lo7-aLo2-1So2Mn1Po4Cff5c-f0SoaNd3So3-1b4So6-17Sof-",
      "10So1Smf-2eMn2-17Mn9-74So3c-f6Soa-27So2-3cSo2Mc3Mn3So6Mc8Cf8Mn2So7Mn1eSo4Mn3dSo15-42So3Mn",
      "1So7a-14Noc-14Noc-57So9-19No87-1aLu1aLl1aLu7Ll1-12Ll1aLu1aLl1Lu1-2Lu2-1Lu2-2Lu2-4Lu1-8Lu",
      "4Ll1-1Ll1-7Ll1-bLl1aLu1aLl2Lu1-4Lu2-8Lu1-7Lu1-1aLl2Lu1-4Lu1-5Lu1-1Lu3-7Lu1-1aLl1aLu1aLl",
      "1aLu1aLl1aLu1aLl1aLu1aLl1aLu1aLl1aLu1cLl2-19Lu1Sm19Ll1Sm6Ll19Lu1Sm19Ll1Sm6Ll19Lu1Sm19Ll1Sm",
      "6Ll19Lu1Sm19Ll1Sm6Ll19Lu1Sm19Ll1Sm6Ll2LC2-32Nd200So37Mn4So32Mn8So1MneSo1Mn2So5Pof-5Mn1-fMn",
      "450-aLl1Lo14Ll6-6Lld5-7Mn1-11Mn2-7Mn1-2Mn1-5Mn5-3eLm21-1Mn70-2dLo3-7Mn7Lm2-aNd4-1Lo1So140-",
      "1eLo1Mn11-2cLo4MnaNd5-1Sc1d0-1bLo1Lm4MnaNdd6-1eLo2Mn1LoaNd4-1Poc0-1fLo1-3Lo1Mn2Lo1Mn7Lo2Mn",
      "5Lo1Mn8-1Lo1Lme0-7Lo1-4Lo1-2Lo1-fLo1-c5Lo2-9No7Mn29-22Lu22Ll7Mn1Lm4-aNd4-2Po311-3bNo1So3No",
      "1Sc4No4c-2dNo1SofNoc2-4Lo1-1bLo1-2Lo1-1Lo2-1Lo1-aLo1-4Lo1-1Lo1-1Lo6-1Lo4-1Lo1-1Lo1-1Lo1-",
      "3Lo1-2Lo1-1Lo2-1Lo1-1Lo1-1Lo1-1Lo1-1Lo1-2Lo1-1Lo2-4Lo1-7Lo1-4Lo1-4Lo1-1Lo1-aLo1-11Lo5-3Lo",
      "1-5Lo1-11Lo34-2Sm10e-2cSo4-64Soc-fSo2-fSo1-fSo1-25Soa-dNoa1So38-1dSod-2cSo4-9So7-2Soe-6So",
      "9a-fbSo5Sk2d9So3-11So3-dSo3-daSo6-cSo4-1Sof-cSo4-38So8-aSo6-28So8-1eSo2-cSo4-2Soe-9Sm27-",
      "158So8-eSo2-dSo3-bSo3-39So1-1So4-10So2-cSo4-aSo7-93So1-5cSoaNd1So405-a6e0Lo20-111eLo2-",
      "168eLo2-1d31Lof-26eLo9a2-21eLo5e2-134bLo5-212aLoacb87-1Cf1e-60Cf80-f0Mnfe10-fffeCo2-fffeCo",
      "2-" ]

end Highlighter.Unicode
