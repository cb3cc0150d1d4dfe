/-!
The scripts of all code points, in order, and the code points that are used in
more scripts than one.
-/
namespace Highlighter.Unicode

/-- The names of the scripts: code, full name, and any older code. -/
def scriptNames : String :=
  String.join
    [ "Adlm=Adlam Aghb=Caucasian_Albanian Ahom=Ahom Arab=Arabic Armi=Imperial_Aramaic ",
      "Armn=Armenian Avst=Avestan Bali=Balinese Bamu=Bamum Bass=Bassa_Vah Batk=Batak ",
      "Beng=Bengali Berf=Beria_Erfe Bhks=Bhaiksuki Bopo=Bopomofo Brah=Brahmi Brai=Braille ",
      "Bugi=Buginese Buhd=Buhid Cakm=Chakma Cans=Canadian_Aboriginal Cari=Carian Cham=Cham ",
      "Cher=Cherokee Chrs=Chorasmian Copt=Coptic=Qaac Cpmn=Cypro_Minoan Cprt=Cypriot ",
      "Cyrl=Cyrillic Deva=Devanagari Diak=Dives_Akuru Dogr=Dogra Dsrt=Deseret Dupl=Duployan ",
      "Egyp=Egyptian_Hieroglyphs Elba=Elbasan Elym=Elymaic Ethi=Ethiopic Gara=Garay ",
      "Geor=Georgian Glag=Glagolitic Gong=Gunjala_Gondi Gonm=Masaram_Gondi Goth=Gothic ",
      "Gran=Grantha Grek=Greek Gujr=Gujarati Gukh=Gurung_Khema Guru=Gurmukhi Hang=Hangul ",
      "Hani=Han Hano=Hanunoo Hatr=Hatran Hebr=Hebrew Hira=Hiragana Hluw=Anatolian_Hieroglyphs ",
      "Hmng=Pahawh_Hmong Hmnp=Nyiakeng_Puachue_Hmong Hung=Old_Hungarian Ital=Old_Italic ",
      "Java=Javanese Kali=Kayah_Li Kana=Katakana Kawi=Kawi Khar=Kharoshthi Khmr=Khmer ",
      "Khoj=Khojki Kits=Khitan_Small_Script Knda=Kannada Krai=Kirat_Rai Kthi=Kaithi ",
      "Lana=Tai_Tham Laoo=Lao Latn=Latin Lepc=Lepcha Limb=Limbu Lina=Linear_A Linb=Linear_B ",
      "Lisu=Lisu Lyci=Lycian Lydi=Lydian Mahj=Mahajani Maka=Makasar Mand=Mandaic ",
      "Mani=Manichaean Marc=Marchen Medf=Medefaidrin Mend=Mende_Kikakui Merc=Meroitic_Cursive ",
      "Mero=Meroitic_Hieroglyphs Mlym=Malayalam Modi=Modi Mong=Mongolian Mroo=Mro ",
      "Mtei=Meetei_Mayek Mult=Multani Mymr=Myanmar Nagm=Nag_Mundari Nand=Nandinagari ",
      "Narb=Old_North_Arabian Nbat=Nabataean Newa=Newa Nkoo=Nko Nshu=Nushu Ogam=Ogham ",
      "Olck=Ol_Chiki Onao=Ol_Onal Orkh=Old_Turkic Orya=Oriya Osge=Osage Osma=Osmanya ",
      "Ougr=Old_Uyghur Palm=Palmyrene Pauc=Pau_Cin_Hau Perm=Old_Permic Phag=Phags_Pa ",
      "Phli=Inscriptional_Pahlavi Phlp=Psalter_Pahlavi Phnx=Phoenician Plrd=Miao ",
      "Prti=Inscriptional_Parthian Rjng=Rejang Rohg=Hanifi_Rohingya Runr=Runic Samr=Samaritan ",
      "Sarb=Old_South_Arabian Saur=Saurashtra Sgnw=SignWriting Shaw=Shavian Shrd=Sharada ",
      "Sidd=Siddham Sidt=Sidetic Sind=Khudawadi Sinh=Sinhala Sogd=Sogdian Sogo=Old_Sogdian ",
      "Sora=Sora_Sompeng Soyo=Soyombo Sund=Sundanese Sunu=Sunuwar Sylo=Syloti_Nagri Syrc=Syriac ",
      "Tagb=Tagbanwa Takr=Takri Tale=Tai_Le Talu=New_Tai_Lue Taml=Tamil Tang=Tangut ",
      "Tavt=Tai_Viet Tayo=Tai_Yo Telu=Telugu Tfng=Tifinagh Tglg=Tagalog Thaa=Thaana Thai=Thai ",
      "Tibt=Tibetan Tirh=Tirhuta Tnsa=Tangsa Todr=Todhri Tols=Tolong_Siki Toto=Toto ",
      "Tutg=Tulu_Tigalari Ugar=Ugaritic Vaii=Vai Vith=Vithkuqi Wara=Warang_Citi Wcho=Wancho ",
      "Xpeo=Old_Persian Xsux=Cuneiform Yezi=Yezidi Yiii=Yi Zanb=Zanabazar_Square ",
      "Zinh=Inherited=Qaai Zyyy=Common" ]

/-- Runs of code points of one script: length in hexadecimal and script code, an
equals sign for code points of all scripts, or a hyphen for those of none. -/
def scriptRuns : String :=
  String.join
    [ "41=1aLatn6=1aLatn2f=1Latnf=1Latn5=17Latn1=1fLatn1=1c1Latn27=5Latn5=2Bopo14=70Zinh4Grek1=",
      "3Grek2-4Grek1=1Grek4-1Grek1=1Grek1=3Grek1-1Grek1-14Grek1-3fGrekeCopt10Grek85Cyrl2Zinh",
      "a9Cyrl1-26Armn2-32Armn2-3Armn1-37Hebr8-1bHebr4-6Hebrb-5Arab1=6Arab1=eArab1=3Arab1=20Arab1=",
      "aArabbZinh1aArab1Zinh6cArab1=22ArabeSyrc1-3cSyrc2-3Syrc30Arab32Thaae-3bNkoo2-3Nkoo2eSamr2-",
      "fSamr1-1cMand2-1Mand1-bSyrc5-22Arab5-4bArab1=1dArab51Deva4ZinhfDeva2=1aDeva4Beng1-8Beng2-",
      "2Beng2-16Beng1-7Beng1-1Beng3-4Beng2-9Beng2-2Beng2-4Beng8-1Beng4-2Beng1-5Beng2-19Beng2-",
      "3Guru1-6Guru4-2Guru2-16Guru1-7Guru1-2Guru1-2Guru1-2Guru2-1Guru1-5Guru4-2Guru2-3Guru3-1Guru",
      "7-4Guru1-1Guru7-11Gurua-3Gujr1-9Gujr1-3Gujr1-16Gujr1-7Gujr1-2Gujr1-5Gujr2-aGujr1-3Gujr1-",
      "3Gujr2-1Gujrf-4Gujr2-cGujr7-7Gujr1-3Orya1-8Orya2-2Orya2-16Orya1-7Orya1-2Orya1-5Orya2-9Orya",
      "2-2Orya2-3Orya7-3Orya4-2Orya1-5Orya2-12Oryaa-2Taml1-6Taml3-3Taml1-4Taml3-2Taml1-1Taml1-",
      "2Taml3-2Taml3-3Taml3-cTaml4-5Taml3-3Taml1-4Taml2-1Taml6-1Tamle-15Taml5-dTelu1-3Telu1-",
      "17Telu1-10Telu2-9Telu1-3Telu1-4Telu7-2Telu1-3Telu1-2Telu2-4Telu2-aTelu7-9TeludKnda1-3Knda",
      "1-17Knda1-aKnda1-5Knda2-9Knda1-3Knda1-4Knda7-2Knda5-3Knda1-4Knda2-aKnda1-3Kndac-dMlym1-",
      "3Mlym1-33Mlym1-3Mlym1-6Mlym4-10Mlym2-1aMlym1-3Sinh1-12Sinh3-18Sinh1-9Sinh1-1Sinh2-7Sinh3-",
      "1Sinh4-6Sinh1-1Sinh1-8Sinh6-aSinh2-3Sinhc-3aThai4-1=1cThai25-2Laoo1-1Laoo1-5Laoo1-18Laoo1-",
      "1Laoo1-17Laoo2-5Laoo1-1Laoo1-7Laoo1-aLaoo2-4Laoo20-48Tibt1-24Tibt4-27Tibt1-24Tibt1-fTibt1-",
      "7Tibt4=2Tibt25-a0Mymr26Geor1-1Geor5-1Geor2-2bGeor1=4Geor100Hang49Ethi1-4Ethi2-7Ethi1-1Ethi",
      "1-4Ethi2-29Ethi1-4Ethi2-21Ethi1-4Ethi2-7Ethi1-1Ethi1-4Ethi2-fEthi1-39Ethi1-4Ethi2-43Ethi2-",
      "20Ethi3-1aEthi6-56Cher2-6Cher2-280Cans1dOgam3-4bRunr3=bRunr7-16Tglg9-1Tglg15Hano2=9-14Buhd",
      "c-dTagb1-3Tagb1-2Tagbc-5eKhmr2-aKhmr6-aKhmr6-2Mong2=1Mong1=14Mong6-59Mong7-2bMong5-46Cans",
      "a-1fLimb1-cLimb4-cLimb4-1Limb3-cLimb1eTale2-5Taleb-2cTalu4-1aTalu6-bTalu3-2Talu20Khmr",
      "1cBugi2-2Bugi3fLana1-1dLana2-bLana6-aLana6-eLana2-2eZinh2-cZinh14-4dBali1-32Bali40Sund",
      "34Batk8-4Batk38Lepc3-fLepc3-3Lepc30OlckbCyrl5-2bGeor2-3Geor8Sund8-3Zinh1=dZinh1=7Zinh4=",
      "1Zinh6=1Zinh3=2Zinh1=5-26Latn5Grek1Cyrl31Latn5Grek4Latn5GrekdLatn1Cyrl46Latn1Grek40Zinh",
      "100Latn16Grek2-6Grek2-26Grek2-6Grek2-8Grek1-1Grek1-1Grek1-1Grek1-1fGrek2-35Grek1-fGrek1-",
      "eGrek2-6Grek1-13Grek2-3Grek1-9Grek1-c=2Zinh57=1-b=1Latn2-b=1Latnf=1-dLatn3-22=e-21Zinhf-",
      "26=1Grek3=2Latn6=1Latn1b=1Latn11=29Latn3=4-29a=16-b=15-3a0=100Brai274=2-8a=60Glag20Latn",
      "74Copt5-7Copt26Geor1-1Geor5-1Geor2-38Tfng7-2Tfnge-1Tfng17Ethi9-7Ethi1-7Ethi1-7Ethi1-7Ethi",
      "1-7Ethi1-7Ethi1-7Ethi1-7Ethi1-20Cyrl5e=22-1aHani1-59Hanic-d6Hani1a-15=1Hani1=1Hani19=9Hani",
      "4Zinh2Hang8=4Hani4=1-56Hira2-2Zinh2=3Hira1=5aKana2=3Kana5-2bBopo1-5eHang1-10=20Bopo26=9-1=",
      "10Kana1fHang1-40=1fHang51=2fKana1=58Kanaa8=19c0Hani40=5200Hani48dYiii3-37Yiii9-30Lisu",
      "12cVaii14-60Cyrl58Bamu8-22=66Latn3=52Latn14-fLatn2dSylo3-a=6-38Phag8-46Saur8-cSaur6-20Deva",
      "2eKali1=1Kali24Rjngb-1Rjng1dHang3-4eJava1-1=aJava4-2Java1fMymr1-37Cham9-eCham2-aCham2-",
      "4Cham20Mymr43Tavt18-5Tavt17Mteia-6Ethi2-6Ethi2-6Ethi9-7Ethi1-7Ethi1-2bLatn1=9Latn1Grek",
      "4Latn2=4-50Cher2eMtei2-aMtei6-2ba4Hangc-17Hang4-31Hang2104-16eHani2-6aHani26-7Latnc-5Armn",
      "5-1aHebr1-5Hebr1-1Hebr1-2Hebr1-2Hebr1-aHebr1eeArab2=90Arab20-10Arab10Zinha=6-eZinh2Cyrl23=",
      "1-13=1-4=4-5Arab1-87Arab2-1=1-20=1aLatn6=1aLatnb=aKana1=2dKana2=1fHang3-6Hang2-6Hang2-",
      "6Hang2-3Hang3-7=1-7=a-5=2-cLinb1-1aLinb1-13Linb1-2Linb1-fLinb2-eLinb22-7bLinb5-3=4-2d=3-9=",
      "4fGrek1-d=3-1Grek2f-2d=1Zinh82-1dLyci3-31Carif-1Zinh1b=4-24Ital9-3Ital1bGoth5-2bPerm5-",
      "1eUgar1-1Ugar24Xpeo4-eXpeo2a-50Dsrt30Shaw1eOsma2-aOsma6-24Osge4-24Osge4-28Elba8-34Aghbb-",
      "1AghbbVith1-fVith1-7Vith1-2Vith1-bVith1-fVith1-7Vith1-2Vith3-34Todrc-137Lina9-16Linaa-",
      "8Lina18-6Latn1-2aLatn1-9Latn45-6Cprt2-1Cprt1-2cCprt1-2Cprt3-1Cprt2-1Cprt16Armi1-9Armi",
      "20Palm1fNbat8-9Nbat30-13Hatr1-2Hatr5-5Hatr1cPhnx3-1Phnx1aLydi5-1Lydi1aSidt26-20Mero18Merc",
      "4-14Merc2-2eMerc4Khar1-2Khar5-8Khar1-3Khar1-1dKhar2-3Khar4-aKhar7-9Khar7-20Sarb20Narb20-",
      "27Mani4-cMani9-36Avst3-7Avst16Prti2-8Prti13Phli5-8Phli12Phlp7-4Phlpc-7Phlp50-49Orkh37-",
      "33Hungd-33Hung7-6Hung28Rohg8-aRohg6-26Gara3-1dGara8-2Garad0-1fArab1-2aYezi1-3Yezi2-2Yezi",
      "10-6Arab8-9Arab21-6Arab28Sogo8-2aSogd16-1aOugr26-1cChrs14-17Elym9-4eBrah4-24Brah9-1Brah",
      "43Kthia-1Kthi2-19Sora7-aSora6-35Cakm1-12Cakm8-27Mahj9-60Shrd1-14Sinhb-12Khoj1-2fKhoj3e-",
      "7Mult1-1Mult1-4Mult1-fMult1-bMult6-3bSind5-aSind6-4Gran1-8Gran2-2Gran2-16Gran1-7Gran1-",
      "2Gran1-5Gran1-1Zinh9Gran2-2Gran2-3Gran2-1Gran6-1Gran5-7Gran2-7Gran3-5Granb-aTutg1-1Tutg2-",
      "1Tutg1-26Tutg1-aTutg1-1Tutg2-1Tutg1-4Tutg1-aTutg1-2Tutg8-2Tutg1d-5cNewa1-5Newa1e-48Tirh8-",
      "aTirha6-36Sidd2-26Sidd22-45Modib-aModi6-dMong13-3aTakr6-aTakr6-14Mymr1c-1bAhom2-fAhom4-",
      "17Ahomb9-3cDogr64-53Warac-1Wara7Diak2-1Diak2-8Diak1-2Diak1-1eDiak1-2Diak2-cDiak9-aDiak46-",
      "8Nand2-2eNand2-bNand1b-48Zanb8-53Soyod-10Cans39Pauc7-aDeva56-8Shrd58-22Sunue-aSunu6-9Bhks",
      "1-2dBhks1-eBhksa-1dBhks3-20Marc2-16Marc1-eMarc49-7Gonm1-2Gonm1-2cGonm3-1Gonm1-2Gonm1-9Gonm",
      "8-aGonm6-6Gong1-2Gong1-25Gong1-2Gong1-6Gong7-aGong6-2cTols4-aTolsf6-19Maka7-11Kawi1-29Kawi",
      "3-1dKawi55-1Lisuf-32Tamld-1Taml39aXsux66-6fXsux1-5Xsuxb-c4Xsuxa4c-63Cpmnd-456Egypa-f9bEgyp",
      "5-247Hluw1ab9-3aGukh6c6-239Bamu7-1fMroo1-aMroo4-2Mroo4fTnsa1-aTnsa6-1eBass2-6Bassa-46Hmng",
      "a-aHmng1-7Hmng1-15Hmng5-13Hmng1b0-3aKraic6-5bMedf5-19Berf2-19Berf2c-4bPlrd4-39Plrd7-11Plrd",
      "40-1Tang1Nshu2Hani1Kitsb-7Hani9-1b00Tang1d6Kits29-1Kits1fTang61-73Tang21fd-4Kana1-7Kana1-",
      "2Kana1-1Kana11fHira3Kanaf-1Hira1d-3Hira2-1Kanae-4Kana8-18cNshu904-6bDupl5-dDupl3-9Dupl7-",
      "aDupl2-4Dupl4=f5c-fd=3-1b4=6-17=f-11=f-2eZinh2-17Zinh9-74=3c-f6=a-27=2-3e=3Zinh11=8Zinh2=",
      "7Zinh1e=4Zinh3d=15-46Grek7a-14=c-14=c-57=9-19=87-55=1-47=1-2=2-1=2-2=2-4=1-c=1-1=1-7=1-41=",
      "1-4=2-8=1-7=1-1c=1-4=1-5=1-1=3-7=1-154=2-124=2-32=28cSgnwf-5Sgnw1-fSgnw450-1fLatn6-6Latn",
      "d5-7Glag1-11Glag2-7Glag1-2Glag1-5Glag5-3eCyrl21-1Cyrl70-2dHmnp3-eHmnp2-aHmnp4-2Hmnp140-",
      "1fToto11-3aWcho5-1Wcho1d0-2aNagmd6-2bOnao4-1Onaoc0-1fTayo1-16Tayo8-2Tayoe0-7Ethi1-4Ethi1-",
      "2Ethi1-fEthi1-c5Mend2-10Mend29-4cAdlm4-aAdlm4-2Adlm311-44=4c-3d=c2-4Arab1-1bArab1-2Arab1-",
      "1Arab2-1Arab1-aArab1-4Arab1-1Arab1-1Arab6-1Arab4-1Arab1-1Arab1-1Arab1-3Arab1-2Arab1-1Arab",
      "2-1Arab1-1Arab1-1Arab1-1Arab1-1Arab1-2Arab1-1Arab2-4Arab1-7Arab1-4Arab1-4Arab1-1Arab1-",
      "aArab1-11Arab5-3Arab1-5Arab1-11Arab34-2Arab10e-2c=4-64=c-f=2-f=1-f=1-25=a-ae=38-1a=1Hira2=",
      "d-2c=4-9=7-2=e-6=9a-3d9=3-11=3-d=3-da=6-c=4-1=f-c=4-38=8-a=6-28=8-1e=2-c=4-2=e-9=27-158=8-",
      "e=2-d=3-b=3-39=1-1=4-10=2-c=4-a=7-93=1-67=405-a6e0Hani20-111eHani2-168eHani2-1d31Hanif-",
      "26eHani9a2-21eHani5e2-134bHani5-212aHaniacb87-1=1e-60=80-f0Zinh2fe10-" ]

/-- Code points whose script extensions differ from their script: distance from
the end of the previous run, length, and the codes of the scripts. -/
def scriptExtensionRuns : String :=
  String.join
    [ "b7 1 AvstCariCoptDuplElbaGeorGlagGongGothGrekHaniLatnLydiMahjPermShaw ",
      "204 1 BengCyrlDevaLatnLisuThaiToto a 1 BopoLatn 1 3 BopoLatn 1 1 LatnLisu 9 1 LatnThai ",
      "1 1 BopoLatn 26 1 CherCoptCyrlGrekLatnPermSunuTale 0 1 CherCyrlGrekLatnOsgeSunuTaleTodr ",
      "0 1 CherCyrlLatnTfng 0 1 GlagLatnSunuSyrcThai ",
      "0 1 AghbCherCoptCyrlGothGrekLatnOsgeSyrcTfngTodr 0 1 CoptElbaGlagGothKanaLatn ",
      "0 1 CyrlGrekLatnPermTfng 0 1 CoptDuplHebrLatnPermSyrcTaleTfngTodr ",
      "0 1 ArmnCyrlDuplGothGrekHebrLatnPermSyrcTaleTfng 0 1 LatnTfng 0 1 DuplLatnSyrc ",
      "0 1 CherCyrlLatnOsge 0 1 CherLatnTale 0 1 LatnSunu 0 1 EthiLatn 1 1 LatnSunu ",
      "0 1 CyrlLatnTodr 1 1 GrekLatnPermTodr f 1 CherDuplKanaLatnSyrcTfng 0 1 CherDuplLatnSyrc ",
      "0 1 LatnSyrc 7 1 LatnSunuSyrc 0 1 LatnSyrc 1 1 CherLatnSyrc ",
      "0 1 AghbCherGothLatnSunuSyrcThai 10 1 Grek 2 1 Grek 12 1 LatnOsge 5 1 AghbLatnTodr ",
      "4 d Latn 4 2 CoptGrek 10d 1 CyrlPerm 0 1 CyrlGlag 0 2 CyrlLatn 0 1 CyrlGlag ",
      "101 1 ArmnGeorGlag 82 1 ArabGaraNkooRohgSyrcThaaYezi e 1 ArabGaraNkooRohgSyrcThaaYezi ",
      "0 1 ArabSyrcThaa 2 1 AdlmArabGaraNkooRohgSyrcThaaYezi ",
      "20 1 AdlmArabMandManiOugrPhlpRohgSogdSyrc a b ArabSyrc a a ArabThaaYezi 6 1 ArabSyrc ",
      "63 1 ArabRohg 27c 1 BengDevaGranGujrGuruKndaLatnMlymNandNewaOryaShrdTamlTeluTirh ",
      "0 1 BengDevaGranGujrGuruKndaLatnMlymNewaOryaTamlTeluTirh ",
      "11 1 BengDevaDogrGongGonmGranGujrGuruKndaMahjMlymNandOnaoOryaSindSinhSyloTakrTamlTeluTirh ",
      "0 1 BengDevaDogrGongGonmGranGujrGukhGuruKndaLimbMahjMlymNandOnaoOryaSindSinhSyloTakrTamlTeluTirh ",
      "0 a DevaDogrKthiMahj 76 a BengCakmSylo 76 a GuruMult 76 a GujrKhoj f6 e GranTaml ",
      "f2 a KndaNandTutg 350 a CakmMymrTale b1 1 GeorGlagLatn 5ef e Runr 3c 2 BuhdHanoTagbTglg ",
      "cb 2 MongPhag 1 1 MongPhag 4ca 1 BengDevaGranKnda 0 1 Deva 0 1 BengDevaGranKnda ",
      "0 1 DevaGranKnda 0 1 Deva 0 1 BengDevaNewaTeluTirh 0 1 BengDevaTelu 0 1 DevaNewaShrd ",
      "0 1 BengDevaNewaTelu 0 1 DevaShrd 0 1 DevaKndaMlymOryaTamlTelu 0 1 Deva 0 2 DevaShrd ",
      "0 2 Deva 0 1 DevaShrd 0 1 BengDeva 0 1 DevaNewaTirh 0 6 Deva 0 1 DevaNandNewa ",
      "0 1 BengDevaShrd 0 1 DevaNewa 0 1 Deva 0 1 BengDevaNewaShrd 0 4 Deva ",
      "0 1 BengDevaGranKndaMlymNandOryaSinhTeluTirhTutg 0 1 DevaGran 0 1 DevaGranKndaTutg ",
      "0 2 BengDeva 0 1 Beng 0 2 DevaGran 0 1 Nand c5 2 Grek 36 1 CyrlLatnSyrc 1 1 Syrc ",
      "234 1 LatnMongPhag 1f 1 AdlmArab a 1 CariGeorGlagHungLyciOrkh 2 1 CariGrekHungMero ",
      "92 1 DevaGranLatn d26 1 CoptLatn 18 1 AvstOrkh 0 1 AvstCariGeorHungKthiLydiSamr a 1 Dupl ",
      "4 1 AdlmArabHung 1 1 CyrlGlag 1ac 10 HaniTang 1 1 BopoHangHaniHiraKanaMongYiii ",
      "0 1 BopoHangHaniHiraKanaMongPhagYiii 0 1 BopoHangHaniHiraKana 2 2 Hani ",
      "0 2 BopoHangHaniHiraKanaMongTibtYiii 0 2 BopoHangHaniHiraKanaLisuMongTibtYiii ",
      "0 6 BopoHangHaniHiraKanaYiii 1 1 BopoHangHaniHiraKana 0 8 BopoHangHaniHiraKanaYiii ",
      "0 4 BopoHangHaniHiraKana a 4 BopoHani 2 1 BopoHangHaniHiraKana 0 5 HiraKana ",
      "1 1 BopoHangHaniHiraKana 4 2 HaniHiraKana 0 2 Hani 59 4 HiraKana 3 1 HiraKana ",
      "5a 1 BopoHangHaniHiraKanaYiii 0 1 HiraKana 93 10 Hani 20 26 Hani 9 1 HaniTang 30 28 Hani ",
      "38 31 Hani f c Hani 33 1 Hani 58 19 Hani a 5 Hani 60 1f Hani 7270 1 CyrlGlag ",
      "90 8 HaniLatn 128 3 DevaDogrGujrGuruKhojKndaKthiMahjMlymModiNandShrdSindTakrTirhTutg ",
      "0 3 DevaDogrGujrGuruKhojKndaKthiMahjModiNandShrdSindTakrTirhTutg ",
      "0 2 DevaDogrGujrGuruKhojKthiMahjModiSindTakrTirh ",
      "0 1 DevaDogrGujrGuruKhojKthiMahjModiShrdSindTakrTirh ",
      "0 1 DevaDogrGujrGuruKhojKthiMahjModiSindTakrTirh b7 1 BengDevaTutg 1 1 DevaTaml ",
      "3a 1 KaliLatnMymr a0 1 BugiJava 536e 2 ArabNkoo b2 1 ArabThaa a 1 ArabThaa ",
      "47 2 BopoHangHaniHiraKana 11a 5 BopoHangHaniHiraKanaYiii a 1 HiraKana 2d 2 HiraKana ",
      "160 2 CpmnCprtLinb 0 1 CprtLinb 4 2d CprtLinaLinb 3 9 CprtLinb 1a0 1c ArabCopt ",
      "7f6 1 ManiOugr 80e 1 GranTaml 1 1 GranTaml 37 2 GranTaml c93 2 GranTaml 1 1 GranTaml ",
      "9ccc 4 Dupl 16bc 12 Hani 1ede 2 Hani" ]

end Highlighter.Unicode
