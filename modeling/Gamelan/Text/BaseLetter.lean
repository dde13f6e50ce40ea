namespace Gamelan.Text

/-!
# Base letters

A letter with diacritics decomposes canonically into a base letter and combining marks.  Here a
character is mapped to what is left of it without the marks of the block U+0300 to U+036F: the first
other character of its full canonical decomposition, or the character itself if there is none.

* `baseLetter` — the map.
* `baseLetter_of_lt` — characters below U+00C0 stand for themselves.
-/

/-! ### Runs of consecutive characters

Each entry is a first code point and the base letters of the run of characters that starts there.
A character in no run, and no Hangul syllable, is its own base letter. -/

/-- Runs of the alphabets, up to the Cyrillic. -/
def alphabetRuns : List (Nat × String) :=
  [(0x00C0, "AAAAAAÆCEEEEIIIIÐNOOOOO"), (0x00D9, "UUUUYÞßaaaaaaæceeeeiiiiðnooooo"),
   (0x00F9, "uuuuyþyAaAaAaCcCcCcCcDdĐđEeEeEeEeEeGgGgGgGgHhĦħIiIiIiIiIıĲĳJjKkĸL"),
   (0x013A, "lLlLlĿŀŁłNnNnNnŉŊŋOoOoOoŒœRrRrRrSsSsSsSsTtTtŦŧUuUuUuUuUuUuWwYyYZ"), (0x017A, "zZzZz"),
   (0x01A0, "Oo"), (0x01AF, "Uu"),
   (0x01CD, "AaIiOoUuUuUuUuUuǝAaAaÆæǤǥGgKkOoOoƷʒjǱǲǳGgǶǷNnAaÆæØøAaAaEeEeIiIiO"),
   (0x020D, "oOoRrRrUuUuSsTtȜȝHhȠȡȢȣȤȥAaEeOoOoOoOoYy"), (0x0374, "ʹ"), (0x037E, ";"),
   (0x0385, "¨Α·ΕΗΙ"), (0x038C, "Ο"), (0x038E, "ΥΩι"), (0x03AA, "ΙΥαεηιυ"),
   (0x03CA, "ιυουωϏϐϑϒϒϒ"), (0x0400, "ЕЕЂГЄЅІІЈЉЊЋКИУ"), (0x0419, "И"), (0x0439, "и"),
   (0x0450, "ееђгєѕііјљњћкиу"), (0x0476, "Ѵѵ"), (0x04C1, "Жж"),
   (0x04D0, "АаАаӔӕЕеӘәӘәЖжЗзӠӡИиИиОоӨөӨөЭэУуУуУуЧчӶӷЫы")]

/-- Runs of the scripts of western, southern and south-eastern Asia. -/
def syllabicRuns : List (Nat × String) :=
  [(0x0622, "ااواي"), (0x06C0, "ەہہ"), (0x06D3, "ے"), (0x0929, "न"), (0x0931, "रलळळ"),
   (0x0958, "कखगजडढफय"), (0x09CB, "েে"), (0x09DC, "ডঢ"), (0x09DF, "য"), (0x0A33, "ਲ"),
   (0x0A36, "ਸ"), (0x0A59, "ਖਗਜ"), (0x0A5E, "ਫ"), (0x0B48, "େ"), (0x0B4B, "େେ"), (0x0B5C, "ଡଢ"),
   (0x0B94, "ஒ"), (0x0BCA, "ெேெ"), (0x0C48, "ె"), (0x0CC0, "ಿ"), (0x0CC7, "ೆೆ"), (0x0CCA, "ೆೆ"),
   (0x0D4A, "െേെ"), (0x0DDA, "ෙ"), (0x0DDC, "ෙෙෙ"), (0x0F43, "ག"), (0x0F4D, "ཌཎཏཐདདནཔཕབབམཙཚཛཛ"),
   (0x0F69, "ཀ"), (0x0F73, "ཱ"), (0x0F75, "ཱྲ"), (0x0F78, "ླ"), (0x0F81, "ཱ"), (0x0F93, "ྒ"),
   (0x0F9D, "ྜ"), (0x0FA2, "ྡ"), (0x0FA7, "ྦ"), (0x0FAC, "ྫ"), (0x0FB9, "ྐ"), (0x1026, "ဥ"),
   (0x1B06, "ᬅᬇᬇᬉᬉᬋᬋᬍᬍᬏᬐᬑᬑ"), (0x1B3B, "ᬺ"), (0x1B3D, "ᬼ"), (0x1B40, "ᬾᬿ"), (0x1B43, "ᭂ")]

/-- Runs of the extended Latin and Greek letters, and of the mathematical signs. -/
def extendedRuns : List (Nat × String) :=
  [(0x1E00, "AaBbBbBbCcDdDdDdDdDdEeEeEeEeEeFfGgHhHhHhHhHhIiIiKkKkKkLlLlLlLlMm"),
   (0x1E40, "MmMmNnNnNnNnOoOoOoOoPpPpRrRrRrRrSsSsSsSsSsTtTtTtTtUuUuUuUuUuVvVv"),
   (0x1E80, "WwWwWwWwWwXxXxYyZzZzZzhtwyẚſẜẝẞẟAaAaAaAaAaAaAaAaAaAaAaAaEeEeEeEe"),
   (0x1EC0, "EeEeEeEeIiIiOoOoOoOoOoOoOoOoOoOoOoOoUuUuUuUuUuUuUuYyYyYyYyỺỻỼỽỾỿα"),
   (0x1F01, "αααααααΑΑΑΑΑΑΑΑεεεεεε"), (0x1F18, "ΕΕΕΕΕΕ"),
   (0x1F20, "ηηηηηηηηΗΗΗΗΗΗΗΗιιιιιιιιΙΙΙΙΙΙΙΙοοοοοο"), (0x1F48, "ΟΟΟΟΟΟ"), (0x1F50, "υυυυυυυυ"),
   (0x1F59, "Υ"), (0x1F5B, "Υ"), (0x1F5D, "Υ"), (0x1F5F, "ΥωωωωωωωωΩΩΩΩΩΩΩΩααεεηηιιοουυωω"),
   (0x1F80, "ααααααααΑΑΑΑΑΑΑΑηηηηηηηηΗΗΗΗΗΗΗΗωωωωωωωωΩΩΩΩΩΩΩΩααααα"), (0x1FB6, "ααΑΑΑΑΑ"),
   (0x1FBE, "ι"), (0x1FC1, "¨ηηη"), (0x1FC6, "ηηΕΕΗΗΗ᾿᾿᾿ιιιι"), (0x1FD6, "ιιΙΙΙΙ"),
   (0x1FDD, "῾῾῾υυυυρρυυΥΥΥΥΡ¨¨\x60"), (0x1FF2, "ωωω"), (0x1FF6, "ωωΟΟΩΩΩ´"),
   (0x2000, "\u2002\u2003"), (0x2126, "Ω"), (0x212A, "KA"), (0x219A, "←→"), (0x21AE, "↔"),
   (0x21CD, "⇐⇔⇒"), (0x2204, "∃"), (0x2209, "∈"), (0x220C, "∋"), (0x2224, "∣"), (0x2226, "∥"),
   (0x2241, "∼"), (0x2244, "≃"), (0x2247, "≅"), (0x2249, "≈"), (0x2260, "="), (0x2262, "≡"),
   (0x226D, "≍<>≤≥"), (0x2274, "≲≳"), (0x2278, "≶≷"), (0x2280, "≺≻"), (0x2284, "⊂⊃"),
   (0x2288, "⊆⊇"), (0x22AC, "⊢⊨⊩⊫"), (0x22E0, "≼≽⊑⊒"), (0x22EA, "⊲⊳⊴⊵"), (0x2329, "〈〉"),
   (0x2ADC, "⫝")]

/-- Runs of the kana. -/
def kanaRuns : List (Nat × String) :=
  [(0x304C, "かききくくけけここささししすすせせそそたたちちっつつてて"), (0x3069, "となにぬねのはははひひひふふふへへへほほほ"), (0x3094, "う"),
   (0x309E, "ゝ"), (0x30AC, "カキキククケケココササシシススセセソソタタチチッツツテテ"), (0x30C9, "トナニヌネノハハハヒヒヒフフフヘヘヘホホホ"),
   (0x30F4, "ウヵヶワヰヱヲ"), (0x30FE, "ヽ")]

/-- Runs of the compatibility ideographs and presentation forms. -/
def ideographRuns : List (Nat × String) :=
  [(0xF900, "豈更車賈滑串句龜龜契金喇奈懶癩羅蘿螺裸邏樂洛烙珞落酪駱亂"), (0xF91C, "卵欄爛蘭鸞嵐濫藍襤拉臘蠟廊朗浪狼郎來冷勞擄櫓爐盧老蘆虜路"),
   (0xF938, "露魯鷺碌祿綠菉錄鹿論壟弄籠聾牢磊賂雷壘屢樓淚漏累縷陋勒肋"), (0xF954, "凜凌稜綾菱陵讀拏樂諾丹寧怒率異北磻便復不泌數索參塞省葉說"),
   (0xF970, "殺辰沈拾若掠略亮兩凉梁糧良諒量勵呂女廬旅濾礪閭驪麗黎力曆"), (0xF98C, "歷轢年憐戀撚漣煉璉秊練聯輦蓮連鍊列劣咽烈裂說廉念捻殮簾獵"),
   (0xF9A8, "令囹寧嶺怜玲瑩羚聆鈴零靈領例禮醴隸惡了僚寮尿料樂燎療蓼遼"), (0xF9C4, "龍暈阮劉杻柳流溜琉留硫紐類六戮陸倫崙淪輪律慄栗率隆利吏履"),
   (0xF9E0, "易李梨泥理痢罹裏裡里離匿溺吝燐璘藺隣鱗麟林淋臨立笠粒狀炙"), (0xF9FC, "識什茶刺切度拓糖宅洞暴輻行降見廓兀嗀﨎﨏塚﨑晴﨓﨔凞猪益"),
   (0xFA18, "礼神祥福靖精羽﨟蘒﨡諸﨣﨤逸都﨧﨨﨩飯飼館鶴郞隷侮僧免勉"), (0xFA34, "勤卑喝嘆器塀墨層屮悔慨憎懲敏既暑梅海渚漢煮爫琢碑社祉祈祐"),
   (0xFA50, "祖祝禍禎穀突節練縉繁署者臭艹艹著褐視謁謹賓贈辶逸難響頻恵"), (0xFA6C, "𤋮舘"),
   (0xFA70, "並况全侀充冀勇勺喝啕喙嗢塚墳奄奔婢嬨廒廙彩徭惘慎愈憎慠懲"), (0xFA8C, "戴揄搜摒敖晴朗望杖歹殺流滛滋漢瀞煮瞧爵犯猪瑱甆画瘝瘟益盛"),
   (0xFAA8, "直睊着磌窱節类絛練缾者荒華蝹襁覆視調諸請謁諾諭謹變贈輸遲"), (0xFAC4, "醙鉶陼難靖韛響頋頻鬒龜𢡊𢡄𣏕㮝䀘䀹𥉉𥳐𧻓齃龎"), (0xFB1D, "י"),
   (0xFB1F, "ײ"), (0xFB2A, "ששששאאאבגדהוז"), (0xFB38, "טיךכל"), (0xFB3E, "מ"), (0xFB40, "נס"),
   (0xFB43, "ףפ"), (0xFB46, "צקרשתובכפ")]

/-- Runs beyond the basic plane. -/
def supplementaryRuns : List (Nat × String) :=
  [(0x105C9, "𐗒"), (0x105E4, "𐗚"), (0x1109A, "𑂙𑂛𑂛"), (0x110AB, "𑂥"), (0x1112E, "𑄱𑄲"),
   (0x1134B, "𑍇𑍇"), (0x11383, "𑎂"), (0x11385, "𑎄"), (0x1138E, "𑎋"), (0x11391, "𑎐"), (0x113C5, "𑏂"),
   (0x113C7, "𑏅"), (0x114BB, "𑒹𑒹"), (0x114BE, "𑒹"), (0x115BA, "𑖸𑖹"), (0x11938, "𑤵"),
   (0x16121, "𖄡𖄢𖄡𖄡"), (0x16D68, "𖵧𖵣𖵣"), (0x1D15E, "𝅗𝅘𝅘𝅘𝅘𝅘𝅘"), (0x1D1BB, "𝆹𝆺𝆹𝆺𝆹𝆺"),
   (0x2F800, "丽丸乁𠄢你侮侻倂偺備僧像㒞𠘺免兔兤具𠔜㒹內再𠕋冗冤仌冬况"), (0x2F81C, "𩇟凵刃㓟刻剆割剷㔕勇勉勤勺包匆北卉卑博即卽卿卿卿𠨬灰及叟"),
   (0x2F838, "𠭣叫叱吆咞吸呈周咢哶唐啓啣善善喙喫喳嗂圖嘆圗噑噴切壮城埴"), (0x2F854, "堍型堲報墬𡓤売壷夆多夢奢𡚨𡛪姬娛娧姘婦㛮㛼嬈嬾嬾𡧈寃寘寧"),
   (0x2F870, "寳𡬘寿将当尢㞁屠屮峀岍𡷤嵃𡷦嵮嵫嵼巡巢㠯巽帨帽幩㡢𢆃㡼庰"), (0x2F88C, "庳庶廊𪎒廾𢌱𢌱舁弢弢㣇𣊸𦇚形彫㣣徚忍志忹悁㤺㤜悔𢛔惇慈慌"),
   (0x2F8A8, "慎慌慺憎憲憤憯懞懲懶成戛扝抱拔捐𢬌挽拼捨掃揤𢯱搢揅掩㨮摩"), (0x2F8C4, "摾撝摷㩬敏敬𣀊旣書晉㬙暑㬈㫤冒冕最暜肭䏙朗望朡杞杓𣏃㭉柺"),
   (0x2F8E0, "枅桒梅𣑭梎栟椔㮝楂榣槪檨𣚣櫛㰘次𣢧歔㱎歲殟殺殻𣪍𡴋𣫺汎𣲼"), (0x2F8FC, "沿泍汧洖派海流浩浸涅𣴞洴港湮㴳滋滇𣻑淹潮𣽞𣾎濆瀹瀞瀛㶖灊"),
   (0x2F918, "災灷炭𠔥煅𤉣熜𤎫爨爵牐𤘈犀犕𤜵𤠔獺王㺬玥㺸㺸瑇瑜瑱璅瓊㼛"), (0x2F934, "甤𤰶甾𤲒異𢆟瘐𤾡𤾸𥁄㿼䀈直𥃳𥃲𥄙𥄳眞真真睊䀹瞋䁆䂖𥐝硎碌"),
   (0x2F950, "磌䃣𥘦祖𥚚𥛅福秫䄯穀穊穏𥥼𥪧𥪧竮䈂𥮫篆築䈧𥲀糒䊠糨糣紀𥾆"), (0x2F96C, "絣䌁緇縂繅䌴𦈨𦉇䍙𦋙罺𦌾羕翺者𦓚𦔣聠𦖨聰𣍟䏕育脃䐋脾媵𦞧"),
   (0x2F988, "𦞵𣎓𣎜舁舄辞䑫芑芋芝劳花芳芽苦𦬼若茝荣莭茣莽菧著荓菊菌菜"), (0x2F9A4, "𦰶𦵫𦳕䔫蓱蓳蔖𧏊蕤𦼬䕝䕡𦾱𧃒䕫虐虜虧虩蚩蚈蜎蛢蝹蜨蝫螆䗗"),
   (0x2F9C0, "蟡蠁䗹衠衣𧙧裗裞䘵裺㒻𧢮𧥦䚾䛇誠諭變豕𧲨貫賁贛起𧼯𠠄跋趼"), (0x2F9DC, "跰𠣞軔輸𨗒𨗭邔郱鄑𨜮鄛鈸鋗鋘鉼鏹鐕𨯺開䦕閷𨵷䧦雃嶲霣𩅅𩈚"),
   (0x2F9F8, "䩮䩶韠𩐊䪲𩒖頋頋頩𩖶飢䬳餩馧駂駾䯎𩬰鬒鱀鳽䳎䳭鵧𪃎䳸𪄅𪈎"), (0x2FA14, "𪊑麻䵖黹黾鼅鼏鼖鼻𪘀")]

/-- All runs, in ascending order. -/
def baseLetterRuns : List (Nat × String) :=
  alphabetRuns ++ syllabicRuns ++ extendedRuns ++ kanaRuns ++ ideographRuns ++ supplementaryRuns

/-- The entry for a code point in a list of runs. -/
def findInRuns (runs : List (Nat × String)) (code : Nat) : Option Char :=
  runs.findSome? fun (first, letters) =>
    if first ≤ code then letters.toList[code - first]? else none

/-! ### The map -/

/-- The leading consonant of a Hangul syllable: 588 syllables share each. -/
def leadingConsonant (code : Nat) : Char :=
  Char.ofNat (0x1100 + (code - 0xAC00) / 588)

/-- What is left of a character when the combining marks of its canonical decomposition are taken
off. -/
def baseLetter (c : Char) : Char :=
  if c.toNat < 0xC0 then c
  else if 0xAC00 ≤ c.toNat ∧ c.toNat < 0xD7A4 then leadingConsonant c.toNat
  else (findInRuns baseLetterRuns c.toNat).getD c

/-- The first characters have no accent to lose. -/
theorem baseLetter_of_lt {c : Char} (h : c.toNat < 0xC0) : baseLetter c = c := by
  simp [baseLetter, h]

end Gamelan.Text
