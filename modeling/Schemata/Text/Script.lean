import Schemata.Text.CharSet
import Schemata.Text.Runs

/-!
The scripts of characters, the scripts that a character is used in besides its own, and the names by
which a script may be asked for.
-/

namespace Schemata.Text

def scriptRuns : List Run := Run.ofPieces [
    "Zyyy65Latn26Zyyy6Latn26Zyyy47LatnZyyy15LatnZyyy5Latn23ZyyyLatn31ZyyyLatn449Zyyy39Latn5Zyyy5B",
    "opo2Zyyy20Zinh112Grek4ZyyyGrek3Zzzz2Grek4ZyyyGrekZzzz4GrekZyyyGrekZyyyGrek3ZzzzGrekZzzzGrek2",
    "0ZzzzGrek63Copt14Grek16Cyrl133Zinh2Cyrl169ZzzzArmn38Zzzz2Armn50Zzzz2Armn3ZzzzHebr55Zzzz8Hebr",
    "27Zzzz4Hebr6Zzzz11Arab5ZyyyArab6ZyyyArab14ZyyyArab3ZyyyArab32ZyyyArab10Zinh11Arab26ZinhArab1",
    "08ZyyyArab34Syrc14ZzzzSyrc60Zzzz2Syrc3Arab48Thaa50Zzzz14Nkoo59Zzzz2Nkoo3Samr46Zzzz2Samr15Zzz",
    "zMand28Zzzz2MandZzzzSyrc11Zzzz5Arab31ZzzzArab2Zzzz5Arab75ZyyyArab29Deva81Zinh4Deva15Zyyy2Dev",
    "a26Beng4ZzzzBeng8Zzzz2Beng2Zzzz2Beng22ZzzzBeng7ZzzzBengZzzz3Beng4Zzzz2Beng9Zzzz2Beng2Zzzz2Be",
    "ng4Zzzz8BengZzzz4Beng2ZzzzBeng5Zzzz2Beng25Zzzz2Guru3ZzzzGuru6Zzzz4Guru2Zzzz2Guru22ZzzzGuru7Z",
    "zzzGuru2ZzzzGuru2ZzzzGuru2Zzzz2GuruZzzzGuru5Zzzz4Guru2Zzzz2Guru3Zzzz3GuruZzzz7Guru4ZzzzGuruZ",
    "zzz7Guru17Zzzz10Gujr3ZzzzGujr9ZzzzGujr3ZzzzGujr22ZzzzGujr7ZzzzGujr2ZzzzGujr5Zzzz2Gujr10ZzzzG",
    "ujr3ZzzzGujr3Zzzz2GujrZzzz15Gujr4Zzzz2Gujr12Zzzz7Gujr7ZzzzOrya3ZzzzOrya8Zzzz2Orya2Zzzz2Orya2",
    "2ZzzzOrya7ZzzzOrya2ZzzzOrya5Zzzz2Orya9Zzzz2Orya2Zzzz2Orya3Zzzz7Orya3Zzzz4Orya2ZzzzOrya5Zzzz2",
    "Orya18Zzzz10Taml2ZzzzTaml6Zzzz3Taml3ZzzzTaml4Zzzz3Taml2ZzzzTamlZzzzTaml2Zzzz3Taml2Zzzz3Taml3",
    "Zzzz3Taml12Zzzz4Taml5Zzzz3Taml3ZzzzTaml4Zzzz2TamlZzzz6TamlZzzz14Taml21Zzzz5Telu13ZzzzTelu3Zz",
    "zzTelu23ZzzzTelu16Zzzz2Telu9ZzzzTelu3ZzzzTelu4Zzzz7Telu2ZzzzTelu3Zzzz2TeluZzzz2Telu4Zzzz2Tel",
    "u10Zzzz7Telu9Knda13ZzzzKnda3ZzzzKnda23ZzzzKnda10ZzzzKnda5Zzzz2Knda9ZzzzKnda3ZzzzKnda4Zzzz7Kn",
    "da2Zzzz6Knda2ZzzzKnda4Zzzz2Knda10ZzzzKnda3Zzzz12Mlym13ZzzzMlym3ZzzzMlym51ZzzzMlym3ZzzzMlym6Z",
    "zzz4Mlym16Zzzz2Mlym26ZzzzSinh3ZzzzSinh18Zzzz3Sinh24ZzzzSinh9ZzzzSinhZzzz2Sinh7Zzzz3SinhZzzz4",
    "Sinh6ZzzzSinhZzzzSinh8Zzzz6Sinh10Zzzz2Sinh3Zzzz12Thai58Zzzz4ZyyyThai28Zzzz37Laoo2ZzzzLaooZzz",
    "zLaoo5ZzzzLaoo24ZzzzLaooZzzzLaoo23Zzzz2Laoo5ZzzzLaooZzzzLaoo7ZzzzLaoo10Zzzz2Laoo4Zzzz32Tibt7",
    "2ZzzzTibt36Zzzz4Tibt39ZzzzTibt36ZzzzTibt15ZzzzTibt7Zyyy4Tibt2Zzzz37Mymr160Geor38ZzzzGeorZzzz",
    "5GeorZzzz2Geor43ZyyyGeor4Hang256Ethi73ZzzzEthi4Zzzz2Ethi7ZzzzEthiZzzzEthi4Zzzz2Ethi41ZzzzEth",
    "i4Zzzz2Ethi33ZzzzEthi4Zzzz2Ethi7ZzzzEthiZzzzEthi4Zzzz2Ethi15ZzzzEthi57ZzzzEthi4Zzzz2Ethi67Zz",
    "zz2Ethi32Zzzz3Ethi26Zzzz6Cher86Zzzz2Cher6Zzzz2Cans640Ogam29Zzzz3Runr75Zyyy3Runr11Zzzz7Tglg22",
    "Zzzz9TglgHano21Zyyy2Zzzz9Buhd20Zzzz12Tagb13ZzzzTagb3ZzzzTagb2Zzzz12Khmr94Zzzz2Khmr10Zzzz6Khm",
    "r10Zzzz6Mong2Zyyy2MongZyyyMong20Zzzz6Mong89Zzzz7Mong43Zzzz5Cans70Zzzz10Limb31ZzzzLimb12Zzzz4",
    "Limb12Zzzz4LimbZzzz3Limb12Tale30Zzzz2Tale5Zzzz11Talu44Zzzz4Talu26Zzzz6Talu11Zzzz3Talu2Khmr32",
    "Bugi28Zzzz2Bugi2Lana63ZzzzLana29Zzzz2Lana11Zzzz6Lana10Zzzz6Lana14Zzzz2Zinh31Zzzz49Bali77Zzzz",
    "Bali50Sund64Batk52Zzzz8Batk4Lepc56Zzzz3Lepc15Zzzz3Lepc3Olck48Cyrl11Zzzz5Geor43Zzzz2Geor3Sund",
    "8Zzzz8Zinh3ZyyyZinh13ZyyyZinh7Zyyy4ZinhZyyy6ZinhZyyy3Zinh2ZyyyZzzz5Latn38Grek5CyrlLatn49Grek",
    "5Latn4Grek5Latn13CyrlLatn70GrekZinh64Latn256Grek22Zzzz2Grek6Zzzz2Grek38Zzzz2Grek6Zzzz2Grek8Z",
    "zzzGrekZzzzGrekZzzzGrekZzzzGrek31Zzzz2Grek53ZzzzGrek15ZzzzGrek14Zzzz2Grek6ZzzzGrek19Zzzz2Gre",
    "k3ZzzzGrek9ZzzzZyyy12Zinh2Zyyy87ZzzzZyyy11LatnZzzz2Zyyy11LatnZyyy15ZzzzLatn13Zzzz3Zyyy33Zzzz",
    "15Zinh33Zzzz15Zyyy38GrekZyyy3Latn2Zyyy6LatnZyyy27LatnZyyy17Latn41Zyyy3Zzzz4Zyyy666Zzzz22Zyyy",
    "11Zzzz21Zyyy928Brai256Zyyy628Zzzz2Zyyy32ZzzzZyyy105Glag96Latn32Copt116Zzzz5Copt7Geor38ZzzzGe",
    "orZzzz5GeorZzzz2Tfng56Zzzz7Tfng2Zzzz14TfngEthi23Zzzz9Ethi7ZzzzEthi7ZzzzEthi7ZzzzEthi7ZzzzEth",
    "i7ZzzzEthi7ZzzzEthi7ZzzzEthi7ZzzzCyrl32Zyyy94Zzzz34Hani26ZzzzHani89Zzzz12Hani214Zzzz26Zyyy21",
    "HaniZyyyHaniZyyy25Hani9Zinh4Hang2Zyyy8Hani4Zyyy4ZzzzHira86Zzzz2Zinh2Zyyy2Hira3ZyyyKana90Zyyy",
    "2Kana3Zzzz5Bopo43ZzzzHang94ZzzzZyyy16Bopo32Zyyy38Zzzz9ZyyyKana16Hang31ZzzzZyyy64Hang31Zyyy81",
    "Kana47ZyyyKana88Zyyy168Hani6592Zyyy64Hani20992Yiii1165Zzzz3Yiii55Zzzz9Lisu48Vaii300Zzzz20Cyr",
    "l96Bamu88Zzzz8Zyyy34Latn102Zyyy3Latn67Zzzz2Latn2ZzzzLatnZzzzLatn8Zzzz21Latn14Sylo45Zzzz3Zyyy",
    "10Zzzz6Phag56Zzzz8Saur70Zzzz8Saur12Zzzz6Deva32Kali46ZyyyKaliRjng36Zzzz11RjngHang29Zzzz3Java7",
    "8ZzzzZyyyJava10Zzzz4Java2Mymr31ZzzzCham55Zzzz9Cham14Zzzz2Cham10Zzzz2Cham4Mymr32Tavt67Zzzz24T",
    "avt5Mtei23Zzzz10Ethi6Zzzz2Ethi6Zzzz2Ethi6Zzzz9Ethi7ZzzzEthi7ZzzzLatn43ZyyyLatn9GrekLatn4Zyyy",
    "2Zzzz4Cher80Mtei46Zzzz2Mtei10Zzzz6Hang11172Zzzz12Hang23Zzzz4Hang49Zzzz8452Hani366Zzzz2Hani10",
    "6Zzzz38Latn7Zzzz12Armn5Zzzz5Hebr26ZzzzHebr5ZzzzHebrZzzzHebr2ZzzzHebr2ZzzzHebr10Arab115Zzzz16",
    "Arab363Zyyy2Arab80Zzzz2Arab54Zzzz7ArabZzzz32Arab16Zinh16Zyyy10Zzzz6Zinh14Cyrl2Zyyy35ZzzzZyyy",
    "19ZzzzZyyy4Zzzz4Arab5ZzzzArab135Zzzz2ZyyyZzzzZyyy32Latn26Zyyy6Latn26Zyyy11Kana10ZyyyKana45Zy",
    "yy2Hang31Zzzz3Hang6Zzzz2Hang6Zzzz2Hang6Zzzz2Hang3Zzzz3Zyyy7ZzzzZyyy7Zzzz10Zyyy5Zzzz2Linb12Zz",
    "zzLinb26ZzzzLinb19ZzzzLinb2ZzzzLinb15Zzzz2Linb14Zzzz34Linb123Zzzz5Zyyy3Zzzz4Zyyy45Zzzz3Zyyy9",
    "Grek79ZzzzZyyy13Zzzz3GrekZzzz47Zyyy45ZinhZzzz130Lyci29Zzzz3Cari49Zzzz15ZinhZyyy27Zzzz4Ital36",
    "Zzzz9Ital3Goth27Zzzz5Perm43Zzzz5Ugar30ZzzzUgarXpeo36Zzzz4Xpeo14Zzzz42Dsrt80Shaw48Osma30Zzzz2",
    "Osma10Zzzz6Osge36Zzzz4Osge36Zzzz4Elba40Zzzz8Aghb52Zzzz11AghbVith11ZzzzVith15ZzzzVith7ZzzzVit",
    "h2ZzzzVith11ZzzzVith15ZzzzVith7ZzzzVith2Zzzz3Todr52Zzzz12Lina311Zzzz9Lina22Zzzz10Lina8Zzzz24",
    "Latn6ZzzzLatn42ZzzzLatn9Zzzz69Cprt6Zzzz2CprtZzzzCprt44ZzzzCprt2Zzzz3CprtZzzz2CprtArmi22ZzzzA",
    "rmi9Palm32Nbat31Zzzz8Nbat9Zzzz48Hatr19ZzzzHatr2Zzzz5Hatr5Phnx28Zzzz3PhnxLydi26Zzzz5LydiZzzz6",
    "4Mero32Merc24Zzzz4Merc20Zzzz2Merc46Khar4ZzzzKhar2Zzzz5Khar8ZzzzKhar3ZzzzKhar29Zzzz2Khar3Zzzz",
    "4Khar10Zzzz7Khar9Zzzz7Sarb32Narb32Zzzz32Mani39Zzzz4Mani12Zzzz9Avst54Zzzz3Avst7Prti22Zzzz2Prt",
    "i8Phli19Zzzz5Phli8Phlp18Zzzz7Phlp4Zzzz12Phlp7Zzzz80Orkh73Zzzz55Hung51Zzzz13Hung51Zzzz7Hung6R",
    "ohg40Zzzz8Rohg10Zzzz6Gara38Zzzz3Gara29Zzzz8Gara2Zzzz208Arab31ZzzzYezi42ZzzzYezi3Zzzz2Yezi2Zz",
    "zz16Arab3Zzzz55Arab4Sogo40Zzzz8Sogd42Zzzz22Ougr26Zzzz38Chrs28Zzzz20Elym23Zzzz9Brah78Zzzz4Bra",
    "h36Zzzz9BrahKthi67Zzzz10KthiZzzz2Sora25Zzzz7Sora10Zzzz6Cakm53ZzzzCakm18Zzzz8Mahj39Zzzz9Shrd9",
    "6ZzzzSinh20Zzzz11Khoj18ZzzzKhoj47Zzzz62Mult7ZzzzMultZzzzMult4ZzzzMult15ZzzzMult11Zzzz6Sind59",
    "Zzzz5Sind10Zzzz6Gran4ZzzzGran8Zzzz2Gran2Zzzz2Gran22ZzzzGran7ZzzzGran2ZzzzGran5ZzzzZinhGran9Z",
    "zzz2Gran2Zzzz2Gran3Zzzz2GranZzzz6GranZzzz5Gran7Zzzz2Gran7Zzzz3Gran5Zzzz11Tutg10ZzzzTutgZzzz2",
    "TutgZzzzTutg38ZzzzTutg10ZzzzTutgZzzz2TutgZzzzTutg4ZzzzTutg10ZzzzTutg2Zzzz8Tutg2Zzzz29Newa92Z",
    "zzzNewa5Zzzz30Tirh72Zzzz8Tirh10Zzzz166Sidd54Zzzz2Sidd38Zzzz34Modi69Zzzz11Modi10Zzzz6Mong13Zz",
    "zz19Takr58Zzzz6Takr10Zzzz6Mymr20Zzzz28Ahom27Zzzz2Ahom15Zzzz4Ahom23Zzzz185Dogr60Zzzz100Wara83",
    "Zzzz12WaraDiak7Zzzz2DiakZzzz2Diak8ZzzzDiak2ZzzzDiak30ZzzzDiak2Zzzz2Diak12Zzzz9Diak10Zzzz70Na",
    "nd8Zzzz2Nand46Zzzz2Nand11Zzzz27Zanb72Zzzz8Soyo83Zzzz13Cans16Pauc57Zzzz7Deva10Zzzz182Sunu34Zz",
    "zz14Sunu10Zzzz6Bhks9ZzzzBhks45ZzzzBhks14Zzzz10Bhks29Zzzz3Marc32Zzzz2Marc22ZzzzMarc14Zzzz73Go",
    "nm7ZzzzGonm2ZzzzGonm44Zzzz3GonmZzzzGonm2ZzzzGonm9Zzzz8Gonm10Zzzz6Gong6ZzzzGong2ZzzzGong37Zzz",
    "zGong2ZzzzGong6Zzzz7Gong10Zzzz310Maka25Zzzz7Kawi17ZzzzKawi41Zzzz3Kawi29Zzzz85LisuZzzz15Taml5",
    "0Zzzz13TamlXsux922Zzzz102Xsux111ZzzzXsux5Zzzz11Xsux196Zzzz2636Cpmn99Zzzz13Egyp1110Zzzz10Egyp",
    "3995Zzzz5Hluw583Zzzz6841Gukh58Zzzz1734Bamu569Zzzz7Mroo31ZzzzMroo10Zzzz4Mroo2Tnsa79ZzzzTnsa10",
    "Zzzz6Bass30Zzzz2Bass6Zzzz10Hmng70Zzzz10Hmng10ZzzzHmng7ZzzzHmng21Zzzz5Hmng19Zzzz432Krai58Zzzz",
    "198Medf91Zzzz101Plrd75Zzzz4Plrd57Zzzz7Plrd17Zzzz64TangNshuHani2KitsZzzz11Hani2Zzzz14Tang6136",
    "Zzzz8Tang768Kits470Zzzz41KitsTang9Zzzz8935Kana4ZzzzKana7ZzzzKana2ZzzzKanaHira287Kana3Zzzz15H",
    "iraZzzz29Hira3Zzzz2KanaZzzz14Kana4Zzzz8Nshu396Zzzz2308Dupl107Zzzz5Dupl13Zzzz3Dupl9Zzzz7Dupl1",
    "0Zzzz2Dupl4Zyyy4Zzzz3932Zyyy250Zzzz6Zyyy436Zzzz76Zinh46Zzzz2Zinh23Zzzz9Zyyy116Zzzz60Zyyy246Z",
    "zzz10Zyyy39Zzzz2Zyyy62Zinh3Zyyy17Zinh8Zyyy2Zinh7Zyyy30Zinh4Zyyy61Zzzz21Grek70Zzzz122Zyyy20Zz",
    "zz12Zyyy20Zzzz12Zyyy87Zzzz9Zyyy25Zzzz135Zyyy85ZzzzZyyy71ZzzzZyyy2Zzzz2ZyyyZzzz2Zyyy2Zzzz2Zyy",
    "y4ZzzzZyyy12ZzzzZyyyZzzzZyyy7ZzzzZyyy65ZzzzZyyy4Zzzz2Zyyy8ZzzzZyyy7ZzzzZyyy28ZzzzZyyy4ZzzzZy",
    "yy5ZzzzZyyyZzzz3Zyyy7ZzzzZyyy340Zzzz2Zyyy292Zzzz2Zyyy50Sgnw652Zzzz15Sgnw5ZzzzSgnw15Zzzz1104L",
    "atn31Zzzz6Latn6Zzzz213Glag7ZzzzGlag17Zzzz2Glag7ZzzzGlag2ZzzzGlag5Zzzz5Cyrl62Zzzz33CyrlZzzz11",
    "2Hmnp45Zzzz3Hmnp14Zzzz2Hmnp10Zzzz4Hmnp2Zzzz320Toto31Zzzz17Wcho58Zzzz5WchoZzzz464Nagm42Zzzz21",
    "4Onao43Zzzz4OnaoZzzz480Ethi7ZzzzEthi4ZzzzEthi2ZzzzEthi15ZzzzMend197Zzzz2Mend16Zzzz41Adlm76Zz",
    "zz4Adlm10Zzzz4Adlm2Zzzz785Zyyy68Zzzz76Zyyy61Zzzz194Arab4ZzzzArab27ZzzzArab2ZzzzArabZzzz2Arab",
    "ZzzzArab10ZzzzArab4ZzzzArabZzzzArabZzzz6ArabZzzz4ArabZzzzArabZzzzArabZzzzArab3ZzzzArab2ZzzzA",
    "rabZzzz2ArabZzzzArabZzzzArabZzzzArabZzzzArabZzzzArab2ZzzzArabZzzz2Arab4ZzzzArab7ZzzzArab4Zzz",
    "zArab4ZzzzArabZzzzArab10ZzzzArab17Zzzz5Arab3ZzzzArab5ZzzzArab17Zzzz52Arab2Zzzz270Zyyy44Zzzz4",
    "Zyyy100Zzzz12Zyyy15Zzzz2Zyyy15ZzzzZyyy15ZzzzZyyy37Zzzz10Zyyy174Zzzz56Zyyy26HiraZyyy2Zzzz13Zy",
    "yy44Zzzz4Zyyy9Zzzz7Zyyy2Zzzz14Zyyy6Zzzz154Zyyy984Zzzz4Zyyy17Zzzz3Zyyy13Zzzz3Zyyy119Zzzz4Zyyy",
    "95Zzzz6Zyyy12Zzzz4ZyyyZzzz15Zyyy12Zzzz4Zyyy56Zzzz8Zyyy10Zzzz6Zyyy40Zzzz8Zyyy30Zzzz2Zyyy12Zzz",
    "z4Zyyy2Zzzz62Zyyy340Zzzz12Zyyy14Zzzz2Zyyy13Zzzz3Zyyy10Zzzz5Zyyy56Zzzz7Zyyy15Zzzz2Zyyy11Zzzz6",
    "Zyyy9Zzzz7Zyyy147ZzzzZyyy102Zzzz1030Hani42720Zzzz32Hani4154Zzzz6Hani222Zzzz2Hani5762Zzzz14Ha",
    "ni7473Zzzz15Hani622Zzzz2466Hani542Zzzz1506Hani4939Zzzz5Hani4192Zzzz711761ZyyyZzzz30Zyyy96Zzz",
    "z128Zinh240Zzzz196112"]

def sharedScripts : List (List String × String) := [
    (["B7"], "Avst Cari Copt Dupl Elba Geor Glag Gong Goth Grek Hani Latn Lydi Mahj Perm Shaw"),
    (["2BC"], "Beng Cyrl Deva Latn Lisu Thai Toto"),
    (["2C7 2C9-2CB 2D9"], "Bopo Latn"),
    (["2CD"], "Latn Lisu"),
    (["2D7"], "Latn Thai"),
    (["300"], "Cher Copt Cyrl Grek Latn Perm Sunu Tale"),
    (["301"], "Cher Cyrl Grek Latn Osge Sunu Tale Todr"),
    (["302"], "Cher Cyrl Latn Tfng"),
    (["303"], "Glag Latn Sunu Syrc Thai"),
    (["304"], "Aghb Cher Copt Cyrl Goth Grek Latn Osge Syrc Tfng Todr"),
    (["305"], "Copt Elba Glag Goth Kana Latn"),
    (["306"], "Cyrl Grek Latn Perm"),
    (["307"], "Copt Dupl Hebr Latn Perm Syrc Tale Tfng Todr"),
    (["308"], "Armn Cyrl Dupl Goth Grek Hebr Latn Perm Syrc Tale"),
    (["309"], "Latn Tfng"),
    (["30A"], "Dupl Latn Syrc"),
    (["30B"], "Cher Cyrl Latn Osge"),
    (["30C"], "Cher Latn Tale"),
    (["30D 310"], "Latn Sunu"),
    (["30E"], "Ethi Latn"),
    (["311"], "Cyrl Latn Todr"),
    (["313"], "Grek Latn Perm Todr"),
    (["320 325 32E"], "Latn Syrc"),
    (["323"], "Cher Dupl Kana Latn Syrc"),
    (["324"], "Cher Dupl Latn Syrc"),
    (["32D"], "Latn Sunu Syrc"),
    (["330"], "Cher Latn Syrc"),
    (["331"], "Aghb Cher Goth Latn Sunu Thai"),
    (["342 345 1DC0-1DC1"], "Grek"),
    (["358"], "Latn Osge"),
    (["35E"], "Aghb Latn Todr"),
    (["363-36F"], "Latn"),
    (["374-375"], "Copt Grek"),
    (["483"], "Cyrl Perm"),
    (["484 487 2E43 A66F"], "Cyrl Glag"),
    (["485-486"], "Cyrl Latn"),
    (["589"], "Armn Geor Glag"),
    (["60C 61B"], "Arab Gara Nkoo Rohg Syrc Thaa Yezi"),
    (["61C"], "Arab Syrc Thaa"),
    (["61F"], "Adlm Arab Gara Nkoo Rohg Syrc Thaa Yezi"),
    (["640"], "Adlm Arab Mand Mani Ougr Phlp Rohg Sogd Syrc"),
    (["64B-655 670"], "Arab Syrc"),
    (["660-669"], "Arab Thaa Yezi"),
    (["6D4"], "Arab Rohg"),
    (["951"], "Beng Deva Gran Gujr Guru Knda Latn Mlym Orya Shrd Taml Telu Tirh"),
    (["952"], "Beng Deva Gran Gujr Guru Knda Latn Mlym Orya Taml Telu Tirh"),
    (["964"],
      "Beng Deva Dogr Gong Gonm Gran Gujr Guru Knda Mahj Mlym Nand Onao Orya Sind Sinh Sylo " ++
        "Takr Taml Telu Tirh"),
    (["965"],
      "Beng Deva Dogr Gong Gonm Gran Gujr Gukh Guru Knda Limb Mahj Mlym Nand Onao Orya Sind " ++
        "Sinh Sylo Takr Taml Telu Tirh"),
    (["966-96F"], "Deva Dogr Kthi Mahj"),
    (["9E6-9EF"], "Beng Cakm Sylo"),
    (["A66-A6F"], "Guru Mult"),
    (["AE6-AEF"], "Gujr Khoj"),
    (["BE6-BF3 11301 11303 1133B-1133C 11FD0-11FD1 11FD3"], "Gran Taml"),
    (["CE6-CEF"], "Knda Nand Tutg"),
    (["1040-1049"], "Cakm Mymr Tale"),
    (["10FB"], "Geor Glag Latn"),
    (["16EB-16ED"], "Runr"),
    (["1735-1736"], "Buhd Hano Tagb Tglg"),
    (["1802-1803 1805"], "Mong Phag"),
    (["1CD0 1CD2"], "Beng Deva Gran Knda"),
    (["1CD1 1CD4 1CDB 1CDE-1CDF 1CE2-1CE8 1CEB-1CEC 1CEE-1CF1"], "Deva"),
    (["1CD3"], "Deva Gran Knda"),
    (["1CD5-1CD6 1CD8 1CE1 1CEA 1CED 1CF5-1CF6"], "Beng Deva"),
    (["1CD7 1CD9 1CDC-1CDD 1CE0"], "Deva Shrd"),
    (["1CDA"], "Deva Knda Mlym Orya Taml Telu"),
    (["1CE9"], "Deva Nand"),
    (["1CF2"], "Beng Deva Gran Knda Mlym Nand Orya Sinh Telu Tirh Tutg"),
    (["1CF3 1CF8-1CF9"], "Deva Gran"),
    (["1CF4"], "Deva Gran Knda Tutg"),
    (["1CF7"], "Beng"),
    (["1CFA"], "Nand"),
    (["1DF8"], "Cyrl Latn Syrc"),
    (["1DFA"], "Syrc"),
    (["202F"], "Latn Mong Phag"),
    (["204F"], "Adlm Arab"),
    (["205A"], "Cari Geor Glag Hung Lyci Orkh"),
    (["205D"], "Cari Grek Hung Mero"),
    (["20F0"], "Deva Gran Latn"),
    (["2E17"], "Copt Latn"),
    (["2E30"], "Avst Orkh"),
    (["2E31"], "Avst Cari Geor Hung Kthi Lydi Samr"),
    (["2E3C 1BCA0-1BCA3"], "Dupl"),
    (["2E41"], "Adlm Arab Hung"),
    (["2FF0-2FFF 31EF"], "Hani Tang"),
    (["3001"], "Bopo Hang Hani Hira Kana Mong Yiii"),
    (["3002"], "Bopo Hang Hani Hira Kana Mong Phag Yiii"),
    (["3003 3013 301C-301F 3030 3037 FE45-FE46"], "Bopo Hang Hani Hira Kana"),
    (["3006 303E-303F 3190-319F 31C0-31E5 3220-3247 3280-32B0 32C0-32CB 32FF 3358-3370 337B-337F",
      "33E0-33FE 1D360-1D371 1F250-1F251"],
      "Hani"),
    (["3008-3009"], "Bopo Hang Hani Hira Kana Mong Tibt Yiii"),
    (["300A-300B"], "Bopo Hang Hani Hira Kana Lisu Mong Tibt Yiii"),
    (["300C-3011 3014-301B 30FB FF61-FF65"], "Bopo Hang Hani Hira Kana Yiii"),
    (["302A-302D"], "Bopo Hani"),
    (["3031-3035 3099-309C 30A0 30FC FF70 FF9E-FF9F"], "Hira Kana"),
    (["303C-303D"], "Hani Hira Kana"),
    (["A700-A707"], "Hani Latn"),
    (["A830-A832"],
      "Deva Dogr Gujr Guru Khoj Knda Kthi Mahj Mlym Modi Nand Shrd Sind Takr Tirh Tutg"),
    (["A833-A835"], "Deva Dogr Gujr Guru Khoj Knda Kthi Mahj Modi Nand Shrd Sind Takr Tirh Tutg"),
    (["A836-A837 A839"], "Deva Dogr Gujr Guru Khoj Kthi Mahj Modi Sind Takr Tirh"),
    (["A838"], "Deva Dogr Gujr Guru Khoj Kthi Mahj Modi Shrd Sind Takr Tirh"),
    (["A8F1"], "Beng Deva Tutg"),
    (["A8F3"], "Deva Taml"),
    (["A92E"], "Kali Latn Mymr"),
    (["A9CF"], "Bugi Java"),
    (["FD3E-FD3F"], "Arab Nkoo"),
    (["FDF2 FDFD"], "Arab Thaa"),
    (["10100-10101"], "Cpmn Cprt Linb"),
    (["10102 10137-1013F"], "Cprt Linb"),
    (["10107-10133"], "Cprt Lina Linb"),
    (["102E0-102FB"], "Arab Copt"),
    (["10AF2"], "Mani Ougr")]

def ofScript (script : String) : CharSet := Run.setOf (· == script) scriptRuns

/-- The characters used in a script: those of the script, but of characters with a list of scripts
those that list it. -/
def usedInScript (script : String) : CharSet :=
  sharedScripts.foldl (fun s (pieces, scripts) =>
    let shared := CharSet.ofPieces pieces
    if (scripts.splitOn " ").contains script then s ∪ shared else s - shared) (ofScript script)

def scriptNames : List (String × String) := [
    ("adlam", "Adlm"), ("adlm", "Adlm"), ("aghb", "Aghb"), ("caucasianalbanian", "Aghb"),
    ("ahom", "Ahom"), ("arab", "Arab"), ("arabic", "Arab"), ("armi", "Armi"),
    ("imperialaramaic", "Armi"), ("armenian", "Armn"), ("armn", "Armn"), ("avestan", "Avst"),
    ("avst", "Avst"), ("bali", "Bali"), ("balinese", "Bali"), ("bamu", "Bamu"), ("bamum", "Bamu"),
    ("bass", "Bass"), ("bassavah", "Bass"), ("batak", "Batk"), ("batk", "Batk"), ("beng", "Beng"),
    ("bengali", "Beng"), ("bhaiksuki", "Bhks"), ("bhks", "Bhks"), ("bopo", "Bopo"),
    ("bopomofo", "Bopo"), ("brah", "Brah"), ("brahmi", "Brah"), ("brai", "Brai"),
    ("braille", "Brai"), ("bugi", "Bugi"), ("buginese", "Bugi"), ("buhd", "Buhd"),
    ("buhid", "Buhd"), ("cakm", "Cakm"), ("chakma", "Cakm"), ("canadianaboriginal", "Cans"),
    ("cans", "Cans"), ("cari", "Cari"), ("carian", "Cari"), ("cham", "Cham"), ("cher", "Cher"),
    ("cherokee", "Cher"), ("chorasmian", "Chrs"), ("chrs", "Chrs"), ("copt", "Copt"),
    ("coptic", "Copt"), ("qaac", "Copt"), ("cpmn", "Cpmn"), ("cyprominoan", "Cpmn"),
    ("cprt", "Cprt"), ("cypriot", "Cprt"), ("cyrillic", "Cyrl"), ("cyrl", "Cyrl"), ("deva", "Deva"),
    ("devanagari", "Deva"), ("diak", "Diak"), ("divesakuru", "Diak"), ("dogr", "Dogr"),
    ("dogra", "Dogr"), ("deseret", "Dsrt"), ("dsrt", "Dsrt"), ("dupl", "Dupl"),
    ("duployan", "Dupl"), ("egyp", "Egyp"), ("egyptianhieroglyphs", "Egyp"), ("elba", "Elba"),
    ("elbasan", "Elba"), ("elym", "Elym"), ("elymaic", "Elym"), ("ethi", "Ethi"),
    ("ethiopic", "Ethi"), ("gara", "Gara"), ("garay", "Gara"), ("geor", "Geor"),
    ("georgian", "Geor"), ("glag", "Glag"), ("glagolitic", "Glag"), ("gong", "Gong"),
    ("gunjalagondi", "Gong"), ("gonm", "Gonm"), ("masaramgondi", "Gonm"), ("goth", "Goth"),
    ("gothic", "Goth"), ("gran", "Gran"), ("grantha", "Gran"), ("greek", "Grek"), ("grek", "Grek"),
    ("gujarati", "Gujr"), ("gujr", "Gujr"), ("gukh", "Gukh"), ("gurungkhema", "Gukh"),
    ("gurmukhi", "Guru"), ("guru", "Guru"), ("hang", "Hang"), ("hangul", "Hang"), ("han", "Hani"),
    ("hani", "Hani"), ("hano", "Hano"), ("hanunoo", "Hano"), ("hatr", "Hatr"), ("hatran", "Hatr"),
    ("hebr", "Hebr"), ("hebrew", "Hebr"), ("hira", "Hira"), ("hiragana", "Hira"),
    ("anatolianhieroglyphs", "Hluw"), ("hluw", "Hluw"), ("hmng", "Hmng"), ("pahawhhmong", "Hmng"),
    ("hmnp", "Hmnp"), ("nyiakengpuachuehmong", "Hmnp"), ("hung", "Hung"), ("oldhungarian", "Hung"),
    ("ital", "Ital"), ("olditalic", "Ital"), ("java", "Java"), ("javanese", "Java"),
    ("kali", "Kali"), ("kayahli", "Kali"), ("kana", "Kana"), ("katakana", "Kana"), ("kawi", "Kawi"),
    ("khar", "Khar"), ("kharoshthi", "Khar"), ("khmer", "Khmr"), ("khmr", "Khmr"), ("khoj", "Khoj"),
    ("khojki", "Khoj"), ("khitansmallscript", "Kits"), ("kits", "Kits"), ("kannada", "Knda"),
    ("knda", "Knda"), ("kiratrai", "Krai"), ("krai", "Krai"), ("kaithi", "Kthi"), ("kthi", "Kthi"),
    ("lana", "Lana"), ("taitham", "Lana"), ("lao", "Laoo"), ("laoo", "Laoo"), ("latin", "Latn"),
    ("latn", "Latn"), ("lepc", "Lepc"), ("lepcha", "Lepc"), ("limb", "Limb"), ("limbu", "Limb"),
    ("lina", "Lina"), ("lineara", "Lina"), ("linb", "Linb"), ("linearb", "Linb"), ("lisu", "Lisu"),
    ("lyci", "Lyci"), ("lycian", "Lyci"), ("lydi", "Lydi"), ("lydian", "Lydi"),
    ("mahajani", "Mahj"), ("mahj", "Mahj"), ("maka", "Maka"), ("makasar", "Maka"), ("mand", "Mand"),
    ("mandaic", "Mand"), ("mani", "Mani"), ("manichaean", "Mani"), ("marc", "Marc"),
    ("marchen", "Marc"), ("medefaidrin", "Medf"), ("medf", "Medf"), ("mend", "Mend"),
    ("mendekikakui", "Mend"), ("merc", "Merc"), ("meroiticcursive", "Merc"), ("mero", "Mero"),
    ("meroitichieroglyphs", "Mero"), ("malayalam", "Mlym"), ("mlym", "Mlym"), ("modi", "Modi"),
    ("mong", "Mong"), ("mongolian", "Mong"), ("mro", "Mroo"), ("mroo", "Mroo"),
    ("meeteimayek", "Mtei"), ("mtei", "Mtei"), ("mult", "Mult"), ("multani", "Mult"),
    ("myanmar", "Mymr"), ("mymr", "Mymr"), ("nagm", "Nagm"), ("nagmundari", "Nagm"),
    ("nand", "Nand"), ("nandinagari", "Nand"), ("narb", "Narb"), ("oldnortharabian", "Narb"),
    ("nabataean", "Nbat"), ("nbat", "Nbat"), ("newa", "Newa"), ("nko", "Nkoo"), ("nkoo", "Nkoo"),
    ("nshu", "Nshu"), ("nushu", "Nshu"), ("ogam", "Ogam"), ("ogham", "Ogam"), ("olchiki", "Olck"),
    ("olck", "Olck"), ("olonal", "Onao"), ("onao", "Onao"), ("oldturkic", "Orkh"), ("orkh", "Orkh"),
    ("oriya", "Orya"), ("orya", "Orya"), ("osage", "Osge"), ("osge", "Osge"), ("osma", "Osma"),
    ("osmanya", "Osma"), ("olduyghur", "Ougr"), ("ougr", "Ougr"), ("palm", "Palm"),
    ("palmyrene", "Palm"), ("pauc", "Pauc"), ("paucinhau", "Pauc"), ("oldpermic", "Perm"),
    ("perm", "Perm"), ("phag", "Phag"), ("phagspa", "Phag"), ("inscriptionalpahlavi", "Phli"),
    ("phli", "Phli"), ("phlp", "Phlp"), ("psalterpahlavi", "Phlp"), ("phnx", "Phnx"),
    ("phoenician", "Phnx"), ("miao", "Plrd"), ("plrd", "Plrd"), ("inscriptionalparthian", "Prti"),
    ("prti", "Prti"), ("rejang", "Rjng"), ("rjng", "Rjng"), ("hanifirohingya", "Rohg"),
    ("rohg", "Rohg"), ("runic", "Runr"), ("runr", "Runr"), ("samaritan", "Samr"), ("samr", "Samr"),
    ("oldsoutharabian", "Sarb"), ("sarb", "Sarb"), ("saur", "Saur"), ("saurashtra", "Saur"),
    ("sgnw", "Sgnw"), ("signwriting", "Sgnw"), ("shavian", "Shaw"), ("shaw", "Shaw"),
    ("sharada", "Shrd"), ("shrd", "Shrd"), ("sidd", "Sidd"), ("siddham", "Sidd"),
    ("khudawadi", "Sind"), ("sind", "Sind"), ("sinh", "Sinh"), ("sinhala", "Sinh"),
    ("sogd", "Sogd"), ("sogdian", "Sogd"), ("oldsogdian", "Sogo"), ("sogo", "Sogo"),
    ("sora", "Sora"), ("sorasompeng", "Sora"), ("soyo", "Soyo"), ("soyombo", "Soyo"),
    ("sund", "Sund"), ("sundanese", "Sund"), ("sunu", "Sunu"), ("sunuwar", "Sunu"),
    ("sylo", "Sylo"), ("sylotinagri", "Sylo"), ("syrc", "Syrc"), ("syriac", "Syrc"),
    ("tagb", "Tagb"), ("tagbanwa", "Tagb"), ("takr", "Takr"), ("takri", "Takr"), ("taile", "Tale"),
    ("tale", "Tale"), ("newtailue", "Talu"), ("talu", "Talu"), ("tamil", "Taml"), ("taml", "Taml"),
    ("tang", "Tang"), ("tangut", "Tang"), ("taiviet", "Tavt"), ("tavt", "Tavt"), ("telu", "Telu"),
    ("telugu", "Telu"), ("tfng", "Tfng"), ("tifinagh", "Tfng"), ("tagalog", "Tglg"),
    ("tglg", "Tglg"), ("thaa", "Thaa"), ("thaana", "Thaa"), ("thai", "Thai"), ("tibetan", "Tibt"),
    ("tibt", "Tibt"), ("tirh", "Tirh"), ("tirhuta", "Tirh"), ("tangsa", "Tnsa"), ("tnsa", "Tnsa"),
    ("todhri", "Todr"), ("todr", "Todr"), ("toto", "Toto"), ("tulutigalari", "Tutg"),
    ("tutg", "Tutg"), ("ugar", "Ugar"), ("ugaritic", "Ugar"), ("vai", "Vaii"), ("vaii", "Vaii"),
    ("vith", "Vith"), ("vithkuqi", "Vith"), ("wara", "Wara"), ("warangciti", "Wara"),
    ("wancho", "Wcho"), ("wcho", "Wcho"), ("oldpersian", "Xpeo"), ("xpeo", "Xpeo"),
    ("cuneiform", "Xsux"), ("xsux", "Xsux"), ("yezi", "Yezi"), ("yezidi", "Yezi"), ("yi", "Yiii"),
    ("yiii", "Yiii"), ("zanabazarsquare", "Zanb"), ("zanb", "Zanb"), ("inherited", "Zinh"),
    ("qaai", "Zinh"), ("zinh", "Zinh"), ("common", "Zyyy"), ("zyyy", "Zyyy")]

end Schemata.Text
